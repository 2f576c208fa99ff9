import Preseed.HardwareTuning.PowerGate

/-!
# Power limits over runs

Every process discovers its controls anew, loads the journal and applies, resets or
checks. Under a policy that does not allow a power increase, no such process writes a
limit above its first value, if every discovery could read the limits. A limit that could
not be read has no gate, and is raised.
-/

namespace Preseed.HardwareTuning

open Effects

/-- What a fresh process is started for. -/
inductive Errand
  | command (duty : Command)
  | health (policy : Option Policy) (checksOwnership : Bool)

/-- The process of an errand: load the journal, then do it. -/
def Errand.process (inventory : Inventory) (errand : Errand) (journal : Journal) :
    Program Hardware Journal (Except Failure Unit × Journal) :=
  match errand with
  | .command duty => duty.process inventory journal
  | .health policy checksOwnership =>
    match loadEngine inventory journal with
    | .error e => .done (.error e, journal)
    | .ok loaded =>
      (do
        let _ ← HardwareTuning.health ⟨loaded, checksOwnership, policy⟩
        pure () : EngineAct Unit) journal

/-- The errand's policy does not allow a power increase. -/
def Errand.Modest : Errand → Prop
  | .command (.apply policy _ _ _) => ∀ p, policy = some p → p.allowPowerIncrease = false
  | .command .reset | .health _ _ => True

/-- The machines that fresh processes can leave behind, each of them stopped anywhere, starting
from the readings `first` and an empty journal. No policy allows a power increase, and nobody but
the processes writes the limits. -/
inductive Worked (power : String → Bool) (admissible : Inventory → Prop) (first : String → Value) :
    Machine → Prop
  | fresh : Worked power admissible first ⟨first, Journal.empty, first⟩
  | process {m m' : Machine} {p : Program Hardware Journal (Except Failure Unit × Journal)}
      {inventory : Inventory} {errand : Errand} (before : Worked power admissible first m)
      (discovered : Discovered power m.hw inventory) (admitted : admissible inventory)
      (modest : errand.Modest)
      (run : Program.Steps (ownLimits power) m (errand.process inventory m.durable) m' p) :
      Worked power admissible first m'

/-- The value an operation writes to a control. -/
def Request.written : Request → Option Value
  | .write _ value | .restoreValue _ value => some value
  | .read _ | .writeMaximum _ | .save _ | .temperature | .checkOwnership _ => none

section Runs

variable {power : String → Bool} {base : String → ℤ} {inventory : Inventory} {m : Machine}

/-- Loading a journal takes its baselines as the gates of the limits it owns. -/
theorem Discovered.gated (h : Discovered power m.hw inventory)
    (hread : inventory.LimitsRead power) (hm : m.Below power base) :
    (inventory.adopt m.durable).Gated power base := by
  intro adopted hadopted hpower
  obtain ⟨knob, hknob, rfl⟩ := List.mem_map.mp hadopted
  obtain ⟨_, hsame⟩ := adopt_eq m.durable knob
  have hid : (adopt m.durable knob).id = knob.id := by rw [hsame]
  rw [hid] at hpower
  obtain ⟨hchoices, hunit, hfixed⟩ := h.numeric knob hknob hpower
  refine ⟨by rw [hsame]; exact hchoices, by rw [hsame]; exact hunit, by rw [hsame]; exact hfixed, ?_⟩
  rw [hid]
  -- A limit in the journal is gated by its baseline, another one by its reading.
  have hreading : knob.powerDefault = some (m.hw knob.id) :=
    (h.reading knob hknob hpower).resolve_left (hread knob hknob hpower)
  have hpre : startsWith knob.setting "RAPL_" ∨ startsWith knob.setting "DOMAIN_" := by
    have hlimit := (h.isPower knob hknob).trans hpower
    simpa [Knob.isPower] using hlimit
  unfold adopt
  split
  · rename_i entry hentry
    obtain ⟨hmem, hentryId⟩ := Journal.entry?_eq_some hentry
    obtain ⟨d, hbefore, hle⟩ := hm.2 entry hmem (hentryId.symm ▸ hpower)
    rw [if_pos ⟨by rw [hreading]; rfl, hpre⟩]
    exact ⟨d, by rw [← hbefore], hentryId ▸ hle⟩
  · obtain ⟨d, hvalue, hle⟩ := hm.1 knob.id hpower
    exact ⟨d, by rw [hreading, hvalue], hle⟩

/-- One process keeps everything below the first values. -/
theorem Errand.process_safe {errand : Errand} (hm : m.Below power base)
    (hdiscovered : Discovered power m.hw inventory) (hread : inventory.LimitsRead power)
    (hmodest : errand.Modest) :
    Program.Safe (ownLimits power) (gated power base) (fun _ m' => m'.Below power base)
      (errand.process inventory m.durable) m := by
  have hgated := hdiscovered.gated hread hm
  have hsafe : ∀ {act : EngineAct Unit}, Stays power base act (fun _ => True) →
      Program.Safe (ownLimits power) (gated power base) (fun _ m' => m'.Below power base)
        (act m.durable) m :=
    fun hact => (hact m.durable m hm.2 hm).mono (fun _ _ _ _ _ hr => hr) (fun _ _ _ hg => hg)
      fun _ _ h => h.2.1
  cases errand with
  | command duty =>
    change Program.Safe _ _ _ (duty.process inventory m.durable) m
    unfold Command.process
    cases hload : loadEngine inventory m.durable with
    | error e => exact hm
    | ok loaded =>
      obtain ⟨rfl, -⟩ := loadEngine_ok hload
      refine hsafe ?_
      cases duty with
      | apply policy checksOwnership profile settings =>
        refine .bind (P := fun _ => True) ?_ fun _ _ => .pure trivial
        exact Stays.apply (by exact hgated) (by exact hmodest) profile settings
      | reset => exact .bind .reset fun _ _ => .pure trivial
  | health policy checksOwnership =>
    unfold Errand.process
    dsimp only
    cases hload : loadEngine inventory m.durable with
    | error e => exact hm
    | ok loaded =>
      obtain ⟨rfl, -⟩ := loadEngine_ok hload
      refine hsafe (.bind (P := fun _ => True) ?_ fun _ _ => .pure trivial)
      exact .health _

/-- The first readings of the limits, as numbers. -/
def firstLimit (first : String → Value) (key : String) : ℤ :=
  match first key with
  | .int n => n
  | _ => 0

/-- Any number of processes keep everything below the first values. -/
theorem Worked.stays {first : String → Value} (h : Worked power (Inventory.LimitsRead power) first m)
    (hnumeric : ∀ key, power key = true → ∃ n, first key = .int n) :
    m.Below power (firstLimit first) := by
  induction h with
  | fresh =>
    refine ⟨fun key hpower => ?_, fun e he => absurd he (List.not_mem_nil)⟩
    obtain ⟨n, hn⟩ := hnumeric key hpower
    exact ⟨n, hn, le_of_eq (by rw [firstLimit, hn])⟩
  | process before discovered admitted modest run ih =>
    rename_i _ p _ _
    have hsafe := (Errand.process_safe ih discovered admitted modest).steps run
    cases p with
    | done x => exact hsafe
    | call s op next => exact hsafe.1.1

end Runs

/-! ### One package limit -/

/-- The long-term limit of one package, as a process finds it. -/
def packageLimit (reading : Option Value) : Inventory where
  knobs := [{ plainKnob "intel-rapl:0/constraint_0_power_limit_uw" "RAPL_PL1_POWER_UW" [] [] with
    minimum := some 1, maximum := some 200, unit := "uW", powerDefault := reading }]
  nodup := by simp
  paired := by simp [plainKnob]

/-- It is the only limit. -/
def isPackageLimit (key : String) : Bool := key = "intel-rapl:0/constraint_0_power_limit_uw"

/-- The machine before the first apply. -/
def unlimited : Machine := ⟨fun _ => .int 100, Journal.empty, fun _ => .int 100⟩

/-- A write changes what it writes. -/
def exactly (key : String) (value : Value) (hw : String → Value) (other : String) : Value :=
  if other = key then value else hw other

/-- An apply that asks for the limit. -/
def limitTo (request : String) : Errand :=
  .command (.apply (some (plainPolicy [("RAPL_PL1_POWER_UW", request)])) false .balanced [])

private theorem limitTo_modest (request : String) : (limitTo request).Modest := by
  rintro _ ⟨⟩
  rfl

private theorem exactly_ownLimits (m : Machine) (mem : Journal) (op : Request) :
    ownLimits isPackageLimit m mem op (m.respond exactly [] mem op).1
      (m.respond exactly [] mem op).2 := by
  have hobeys : ∀ key value, Obeys isPackageLimit key value m.hw (exactly key value m.hw) := by
    intro key value other limit hother hkey
    unfold exactly
    split
    · exact hkey ‹_›
    · exact hother
  cases op with
  | read key =>
    refine ⟨rfl, fun value hvalue => ?_⟩
    cases (show Except.ok (m.hw key) = Except.ok value from hvalue)
    rfl
  | write key value | restoreValue key value => exact ⟨_, hobeys key value, rfl⟩
  | writeMaximum key => exact ⟨m.hw, fun _ _ => rfl, rfl⟩
  | save journal => exact .inl rfl
  | temperature | checkOwnership => rfl

private theorem packageLimit_discovered {hw : String → Value} {reading : Option Value}
    (h : reading = none ∨ reading = some (hw "intel-rapl:0/constraint_0_power_limit_uw")) :
    Discovered isPackageLimit hw (packageLimit reading) where
  isPower := by
    have hpre : startsWith "RAPL_PL1_POWER_UW" "RAPL_" = true := by decide
    simp [packageLimit, plainKnob, Knob.isPower, isPackageLimit, hpre]
  numeric := by simp [packageLimit, plainKnob]
  reading := by simpa [packageLimit, plainKnob] using fun _ => h

private theorem packageLimit_read (value : Value) :
    (packageLimit (some value)).LimitsRead isPackageLimit := by
  simp [Inventory.LimitsRead, packageLimit]

/-- The machine after an apply of a lower limit. -/
def lowered : Machine :=
  (Program.runFor (Machine.respond exactly []) 60 unlimited
    ((limitTo "80").process (packageLimit (some (.int 100))) unlimited.durable)).1

/-- A second apply, at the write of its reset. -/
def lowering : Machine × Program Hardware Journal (Except Failure Unit × Journal) :=
  Program.runFor (Machine.respond exactly []) 5 lowered
    ((limitTo "max").process (packageLimit (some (.int 80))) lowered.durable)

/-- The first apply of a process that could not read the limit, at its write. -/
def raising : Machine × Program Hardware Journal (Except Failure Unit × Journal) :=
  Program.runFor (Machine.respond exactly []) 5 unlimited
    ((limitTo "max").process (packageLimit none) unlimited.durable)

private theorem limits_computed :
    lowered.hw "intel-rapl:0/constraint_0_power_limit_uw" = .int 80 ∧
    lowering.2.issued?.map Prod.snd =
      some (.write "intel-rapl:0/constraint_0_power_limit_uw" (.int 100)) ∧
    raising.2.issued?.map Prod.snd =
      some (.write "intel-rapl:0/constraint_0_power_limit_uw" (.int 200)) := by
  decide +kernel

end Preseed.HardwareTuning
