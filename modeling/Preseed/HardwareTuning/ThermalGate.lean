import Preseed.HardwareTuning.EngineRules
import Preseed.HardwareTuning.Machine

/-!
# The thermal gate

A profile is written only after the sensors have given a temperature below the maximum,
or none although nothing in the plan needs one. What an earlier profile owns may be given
back before that. Once a risk is owned, the health check reports when the temperature can
no longer be shown to be safe.
-/

namespace Preseed.HardwareTuning

open Effects

/-- A requested value is a positive offset, above the default power, or the performance profile
of the platform. -/
inductive Knob.Risk (knob : Knob) : Value → Prop
  | offset {n : ℤ} (overclock : knob.overclock = true) (positive : 0 < n) : Risk knob (.int n)
  | power {n default : ℤ} (reference : knob.powerDefault = some (.int default))
      (above : default < n) : Risk knob (.int n)
  | platform (setting : knob.setting = "PLATFORM_PROFILE") : Risk knob (.text "performance")

/-- A temperature reading lets a plan pass. -/
structure Cleared (inventory : Inventory) (policy : Policy) (values : List (String × Value))
    (temperature : Option ℚ) : Prop where
  /-- A temperature that is read is below the maximum. -/
  below : ∀ t, temperature = some t → t < policy.maxTemperature
  /-- Without a temperature nothing in the plan is a risk. -/
  riskless : temperature = none → ∀ kv ∈ values, ∀ knob, inventory.get? kv.1 = some knob →
    ¬knob.Risk kv.2

/-- The readings of the sensors so far. -/
abbrev Readings : Type := List (Except Failure (Option ℚ))

/-- Hardware that answers anything, and keeps the temperature readings. -/
def sensing : Environment Hardware Journal Readings := fun w _ op =>
  match op with
  | .temperature => fun (answer : Except Failure (Option ℚ)) w' => w' = w ++ [answer]
  | .read _ | .write _ _ | .writeMaximum _ | .restoreValue _ _ | .save _ | .checkOwnership _ =>
    fun _ w' => w' = w

/-- A control is written to put a baseline back, or after a reading that has cleared the plan. -/
def thermallyGated (base : List (String × Value)) (gate : ℕ) (clears : Option ℚ → Prop) :
    Guard Hardware Journal Readings := fun w _ op =>
  op.target ≠ none → op.Restores base ∨ ∃ t, w[gate]? = some (.ok t) ∧ clears t

section Risks

variable {inventory : Inventory}

/-- A search that finds nothing has refused every element. -/
theorem anyM_false {ε α : Type} {f : α → Except ε Bool} {xs : List α}
    (h : xs.anyM f = .ok false) : ∀ x ∈ xs, f x = .ok false := by
  induction xs with
  | nil => simp
  | cons x xs ih =>
    rw [List.anyM] at h
    cases hx : f x with
    | error e =>
      rw [hx] at h
      cases h
    | ok found =>
      rw [hx] at h
      cases found with
      | true => cases h
      | false =>
        intro y hy
        rcases List.mem_cons.mp hy with rfl | hy
        · exact hx
        · exact ih h y hy

/-- A plan that is not risky holds no risk. -/
theorem risky_false {values : List (String × Value)} (h : risky inventory values = .ok false)
    {kv : String × Value} (hkv : kv ∈ values) {knob : Knob}
    (hknob : inventory.get? kv.1 = some knob) : ¬knob.Risk kv.2 := by
  unfold risky at h
  obtain ⟨overclocks, hoverclocks, h⟩ := bind_ok h
  split at h
  · cases h
  rename_i hno
  rw [Bool.not_eq_true] at hno
  subst hno
  obtain ⟨power, hpower, h⟩ := bind_ok h
  split at h
  · cases h
  rename_i hno
  rw [Bool.not_eq_true] at hno
  subst hno
  have hover := anyM_false hoverclocks kv hkv
  have habove := anyM_false hpower kv hkv
  have hplatform : (values.any fun kv =>
      inventory.hasSetting ["PLATFORM_PROFILE"] kv.1 && kv.2 == .text "performance") = false :=
    Except.ok.inj h
  rw [hknob] at hover habove
  obtain ⟨key, value⟩ := kv
  rintro (⟨hflag, hpositive⟩ | ⟨href, hmore⟩ | hsetting)
  · simp [hflag, Value.gt] at hover
    omega
  · simp [href, Value.gt] at habove
    omega
  · have hnot := List.any_eq_false.mp hplatform _ hkv
    simp [Inventory.hasSetting, hknob, hsetting] at hnot

/-- The health check recognises every risk. -/
theorem ownsRisk_of_risk {knob : Knob} {value : Value} (h : knob.Risk value) :
    ownsRisk knob value = .ok true := by
  cases h with
  | offset hflag hpositive =>
    simp [ownsRisk, hflag, hpositive, pure, Except.pure]
  | power href hmore =>
    unfold ownsRisk
    simp only [href, reduceCtorEq, and_false, if_false, Value.gt, gt_iff_lt, hmore, decide_true]
    split <;> rfl
  | platform hsetting => simp [ownsRisk, hsetting, pure, Except.pure]

/-- A risk among the entries is found, unless the search fails. -/
theorem riskOwned_of_risk {entries : List Entry} {b : Bool}
    (h : riskOwned inventory entries = .ok b) {entry : Entry} (hentry : entry ∈ entries)
    {knob : Knob} (hknob : inventory.get? entry.id = some knob) {value : Value}
    (hvalue : entry.requested = some value) (hrisk : knob.Risk value) : b = true := by
  induction entries with
  | nil => cases hentry
  | cons first rest ih =>
    unfold riskOwned at h
    rcases List.mem_cons.mp hentry with rfl | hentry
    · rw [hknob, hvalue] at h
      dsimp only at h
      rw [ownsRisk_of_risk hrisk] at h
      exact (Except.ok.inj h).symm
    · split at h
      · obtain ⟨found, -, h⟩ := bind_ok h
        split at h
        · exact (Except.ok.inj h).symm
        · exact ih h hentry
      · exact ih h hentry

end Risks

section Gate

variable {base : List (String × Value)} {gate : ℕ} {clears : Option ℚ → Prop}

/-- Some number of readings so far, and a journal with known baselines. -/
def sensed (base : List (String × Value)) (n : ℕ) (s : Journal) (w : Readings) : Prop :=
  s.Within base ∧ w.length = n

/-- An operation that writes nothing, or that puts a baseline back, passes the gate. -/
private theorem maintains_request {I : Journal → Readings → Prop} {op : Request}
    (hop : op.target = none ∨ op.Restores base) (hsensor : op ≠ .temperature) :
    Act.Maintains sensing (thermallyGated base gate clears) I (request op) fun _ => True := by
  intro s w hI
  rw [wp_request]
  constructor
  · intro htarget
    rcases hop with hop | hop
    · exact absurd hop htarget
    · exact .inl hop
  · intro answer w' hanswer
    have hsame : w' = w := by
      cases op with
      | temperature => exact absurd rfl hsensor
      | _ => exact hanswer
    rw [hsame]
    exact ⟨hI, fun _ _ => trivial⟩

private theorem looking (I : Journal → Readings → Prop) :
    Looking sensing (thermallyGated base gate clears) I := by
  intro op hlooks
  cases op with
  | read | checkOwnership => exact maintains_request (.inl rfl) (by simp)
  | write | writeMaximum | restoreValue | save | temperature => cases hlooks

private theorem resetting (n : ℕ) :
    Resetting sensing (thermallyGated base gate clears) (sensed base n) base where
  look := looking _
  save _ := maintains_request (.inl rfl) (by simp)
  puts op hop := by
    refine maintains_request (.inr hop) ?_
    rintro rfl
    obtain ⟨kv, -, h | h⟩ := hop <;> cases h
  within _ _ h := h.1
  smaller _ _ _ h hwithin := ⟨hwithin, h.2⟩

/-- The temperature is read once, and the reading is kept. -/
theorem wp_readTemperature_sensing {s : Journal} {w : Readings}
    {Q : Except Failure (Option ℚ) → Journal → Readings → Prop}
    (h : ∀ answer, Q answer s (w ++ [answer])) :
    wp sensing (thermallyGated base gate clears) readTemperature Q s w := by
  refine (wp_request .temperature).mpr ⟨fun htarget => absurd rfl htarget, ?_⟩
  rintro answer w' rfl
  exact h answer

/-- The health check takes one reading and writes nothing. It reports a temperature at or above
the maximum, and a risk that is owned without a temperature. -/
theorem wp_health_sensing (engine : Engine) (s : Journal) (w : Readings) :
    wp sensing (thermallyGated base gate clears) (health engine)
      (fun x s' w' => s' = s ∧ ∀ report, x = .ok report →
        w' = w ++ [.ok report.temperature] ∧
        ((∃ t policy, report.temperature = some t ∧ engine.policy = some policy ∧
            policy.maxTemperature ≤ t) → report.conflicts ≠ []) ∧
        (report.temperature = none → (∃ entry ∈ s.entries, ∃ knob value,
          engine.inventory.get? entry.id = some knob ∧ entry.requested = some value ∧
            knob.Risk value) → report.conflicts ≠ [])) s w := by
  have hlook : Looking sensing (thermallyGated base gate clears) fun s' w' => s' = s ∧ w' = w :=
    looking _
  unfold health
  rw [wp_bind, wp_get, outcome_ok, wp_bind]
  have hentries : Act.Maintains sensing (thermallyGated base gate clears)
      (fun s' w' => s' = s ∧ w' = w)
      (Act.fold (fun conflicts entry => do
        let more ← entryConflict engine.inventory entry
        pure (conflicts ++ more)) ([] : List String) s.entries) fun _ => True :=
    .fold trivial fun _ _ entry _ =>
      .bind (hlook.entryConflict engine.inventory entry) fun _ _ => .pure trivial
  refine wp_mono (hentries s w ⟨rfl, rfl⟩) ?_
  rintro (e | conflicts) s' w' ⟨⟨rfl, rfl⟩, -⟩
  · exact ⟨rfl, nofun⟩
  rw [outcome_ok, wp_bind]
  have howners : Act.Maintains sensing (thermallyGated base gate clears)
      (fun s'' w'' => s'' = s' ∧ w'' = w')
      (if engine.checksOwnership ∧ s'.entries ≠ [] then
        Act.handleIf
          (do
            request (.checkOwnership (s'.entries.map fun e => (e.id, e.requested)))
            pure conflicts)
          Failure.isOsOrTuning
          fun e => pure (conflicts ++ [e.text])
      else pure conflicts : EngineAct (List String)) fun _ => True :=
    .ite (fun _ => .handleIf (.bind (hlook _ trivial) fun _ _ => .pure trivial)
      fun _ => .pure trivial) fun _ => .pure trivial
  refine wp_mono (howners s' w' ⟨rfl, rfl⟩) ?_
  rintro (e | conflicts) s'' w'' ⟨⟨rfl, rfl⟩, -⟩
  · exact ⟨rfl, nofun⟩
  rw [outcome_ok, wp_bind]
  refine wp_readTemperature_sensing fun answer => ?_
  cases answer with
  | error e => exact ⟨rfl, nofun⟩
  | ok temperature =>
    rw [outcome_ok, wp_bind]
    cases temperature with
    | none =>
      simp only [Option.isNone_none, if_true, wp_bind, wp_lift]
      cases howned : riskOwned engine.inventory s''.entries with
      | error e => exact ⟨rfl, nofun⟩
      | ok owned =>
        refine ⟨rfl, ?_⟩
        rintro _ ⟨⟩
        refine ⟨rfl, by simp, fun _ => ?_⟩
        rintro ⟨entry, hentry, knob, value, hknob, hvalue, hrisk⟩
        rw [riskOwned_of_risk howned hentry hknob hvalue hrisk]
        simp
    | some t =>
      refine ⟨rfl, ?_⟩
      rintro _ ⟨⟩
      refine ⟨rfl, ?_, by simp⟩
      rintro ⟨_, policy, ⟨⟩, hpolicy, hhot⟩
      simp [hpolicy, hhot]

/-- From its resolved plan on, an apply writes only after a reading that clears the plan. -/
theorem wp_applyPlan_sensing {inventory : Inventory} {policy : Policy} (name : Profile)
    {values : List (String × Value)} (skipped : List String) {s : Journal} {w : Readings}
    (hgate : w.length = gate)
    (hclears : ∀ t, Cleared inventory policy values t → clears t) :
    wp sensing (thermallyGated base gate clears)
      (applyPlan inventory policy name values skipped) (fun _ _ _ => True) s w := by
  unfold applyPlan
  rw [wp_bind]
  refine wp_readTemperature_sensing fun answer => ?_
  cases answer with
  | error e => trivial
  | ok temperature =>
    -- Once the reading clears the plan, it does so for the rest of the run.
    have hrest : Cleared inventory policy values temperature → ∀ (act : EngineAct ApplyReport) s,
        wp sensing (thermallyGated base gate clears) act (fun _ _ _ => True) s
          (w ++ [.ok temperature]) := by
      intro hcleared act s
      refine wp_mono (Act.wp_of_invariant (J := fun w' : Readings => ∃ t,
        w'[gate]? = some (.ok t) ∧ clears t) (fun _ _ _ h _ => .inr h) ?_ act s ?_) ?_
      · rintro w' s' op answer w'' ⟨t, ht, hc⟩ hanswer
        refine ⟨t, ?_, hc⟩
        have hlt : gate < w'.length := (List.getElem?_eq_some_iff.mp ht).1
        cases op with
        | temperature =>
          obtain ⟨r, rfl⟩ : ∃ r : Except Failure (Option ℚ), w'' = w' ++ [r] := ⟨answer, hanswer⟩
          rw [List.getElem?_append_left hlt, ht]
        | _ =>
          have hsame : w'' = w' := hanswer
          rw [hsame, ht]
      · exact ⟨temperature, by simp [← hgate], hclears _ hcleared⟩
      · exact fun _ _ _ _ => trivial
    rw [outcome_ok, wp_bind]
    have hgated : (∀ t, temperature = some t → t < policy.maxTemperature) →
        ∀ s, wp sensing (thermallyGated base gate clears) (do
          let risk ← Act.lift (risky inventory values)
          Act.when (risk ∧ temperature.isNone) (Act.raise (tuningError
            "overclock/power increases require a readable temperature sensor"))
          let changed ← changedKeys inventory values
          let affected := sortedKeys (changed.flatMap (sideEffects inventory))
          let values := values.filter fun kv => kv.1 ∈ affected
          let entries ← Act.fold (snapshot values) [] affected
          Act.modify fun _ => ⟨some name, entries⟩
          saveJournal ⟨some name, entries⟩
          Act.handle (writeAndVerify inventory policy name values affected skipped temperature)
            (undo inventory)) (fun _ _ _ => True) s (w ++ [.ok temperature]) := by
      intro hbelow s
      rw [wp_bind, wp_lift]
      cases hrisky : risky inventory values with
      | error e => trivial
      | ok risk =>
        rw [outcome_ok, wp_bind, wp_when]
        refine ⟨fun _ => trivial, fun hpass => ?_⟩
        refine hrest ⟨hbelow, ?_⟩ _ _
        rintro rfl kv hkv knob hknob
        have hno : risk = false := by simpa using hpass
        exact risky_false (hno ▸ hrisky) hkv hknob
    cases temperature with
    | none => exact hgated (by simp) s
    | some t =>
      unfold thermalGate
      rw [wp_when]
      refine ⟨fun _ => trivial, fun hcool => hgated ?_ s⟩
      rintro _ ⟨⟩
      exact Rat.not_le.mp hcool

end Gate

/-- Which of its readings an apply is gated by: the health check of an earlier profile takes one
before. -/
def gateReading (file : Journal) : ℕ := if file.entries = [] then 0 else 1

/-- The baselines of a journal. -/
theorem Journal.within_self (journal : Journal) :
    journal.Within (journal.entries.map fun e => (e.id, e.before)) :=
  fun _ he => List.mem_map_of_mem he

theorem wp_planned_sensing {engine : Engine} (name : Profile) (settings : Settings)
    {file : Journal} (hclears : ∀ policy values t, engine.policy = some policy →
      resolvedValues engine.inventory policy (policy.profiles name) = .ok values →
      Cleared engine.inventory policy values t → clears t) :
    ∀ s w, sensed base (gateReading file) s w → wp sensing
    (thermallyGated base (gateReading file) clears) (plan engine name settings)
    (outcome (fun planned => wp sensing (thermallyGated base (gateReading file) clears)
      (match engine.policy with
        | none => Act.raise (tuningError "invalid profile")
        | some policy => applyPlan engine.inventory policy name planned.1 planned.2)
      fun _ _ _ => True) fun _ _ _ => True) s w := by
  intro s w hI
  refine wp_mono ((looking _).plan engine name settings s w hI) ?_
  rintro (e | planned) s' w' ⟨⟨-, hlength⟩, hplanned⟩
  · trivial
  · obtain ⟨policy, hpolicy, hvalues⟩ := hplanned planned rfl
    rw [outcome_ok, hpolicy]
    exact wp_applyPlan_sensing name _ hlength fun t => hclears policy _ t hpolicy hvalues

/-- The writes of an apply, from its journal on. -/
theorem wp_apply_sensing {engine : Engine} (name : Profile) (settings : Settings)
    {file : Journal} {clears : Option ℚ → Prop}
    (hclears : ∀ policy values t, engine.policy = some policy →
      resolvedValues engine.inventory policy (policy.profiles name) = .ok values →
      Cleared engine.inventory policy values t → clears t) :
    wp sensing (thermallyGated (file.entries.map fun e => (e.id, e.before))
      (gateReading file) clears) (apply engine name settings) (fun _ _ _ => True) file [] := by
  set base := file.entries.map fun e => (e.id, e.before) with hbase
  unfold apply
  simp only [wp_bind, wp_get, outcome_ok, wp_when]
  refine ⟨fun hne => ?_, fun hempty => wp_planned_sensing name settings hclears file [] ⟨file.within_self, ?_⟩⟩
  · unfold giveUp
    rw [wp_bind]
    refine wp_mono (wp_health_sensing engine file []) ?_
    rintro (e | report) s w ⟨rfl, hreport⟩
    · trivial
    obtain ⟨rfl, -⟩ := hreport report rfl
    rw [outcome_ok, wp_bind]
    have hreset : Resetting sensing (thermallyGated base (gateReading s) clears) (sensed base 1)
      base := resetting 1
    refine wp_mono (hreset.reset s _ ⟨s.within_self, rfl⟩) ?_
    rintro (e | done) s' w ⟨hI, -⟩
    · trivial
    rw [outcome_ok, wp_when]
    refine ⟨fun _ => trivial, fun _ => ?_⟩
    rw [outcome_ok, wp_bind]
    refine wp_planned_sensing name settings hclears s' w ?_
    rwa [gateReading, if_neg hne]
  · rw [gateReading, if_pos (by simpa using hempty)]
    rfl

/-- Every write of an apply puts a baseline of the journal it found back, or follows a reading of
the temperature that has cleared its plan. A health check that returns has read the temperature,
and reports a conflict when it is at or above the maximum, or cannot be read while a requested
risk is owned. -/
theorem thermally_gated (inventory : Inventory) (file : Journal) :
    (∀ policy checksOwnership name settings w p mem op,
      Program.Steps sensing [] ((Command.apply policy checksOwnership name settings).process
        inventory file) w p →
      p.issued? = some (mem, op) → op.target ≠ none →
      (∃ e ∈ file.entries, op.Puts e.id e.before) ∨
        ∃ loaded accepted values t, loadEngine inventory file = .ok loaded ∧
          policy = some accepted ∧
          resolvedValues loaded accepted (accepted.profiles name) = .ok values ∧
          w[gateReading file]? = some (.ok t) ∧ Cleared loaded accepted values t) ∧
    ∀ checksOwnership policy w report mem,
      Program.Steps sensing [] (health ⟨inventory.adopt file, checksOwnership, some policy⟩ file)
        w (.done (.ok report, mem)) →
      ∃ t, w = [.ok t] ∧
        ((∃ x, t = some x ∧ policy.maxTemperature ≤ x) ∨ t = none ∧
          (∃ entry ∈ file.entries, ∃ knob value,
            (inventory.adopt file).get? entry.id = some knob ∧ entry.requested = some value ∧
              knob.Risk value) → report.conflicts ≠ []) := by
  constructor
  · intro policy checksOwnership name settings w p mem op hrun hissued htarget
    set base := file.entries.map fun e => (e.id, e.before) with hbase
    have hsafe : Program.Safe sensing (thermallyGated base (gateReading file)
        fun t => ∃ loaded accepted values, loadEngine inventory file = .ok loaded ∧
          policy = some accepted ∧
          resolvedValues loaded accepted (accepted.profiles name) = .ok values ∧
          Cleared loaded accepted values t) (fun _ _ => True)
        ((Command.apply policy checksOwnership name settings).process inventory file) [] := by
      unfold Command.process
      cases hload : loadEngine inventory file with
      | error e => trivial
      | ok loaded =>
        change wp sensing _ (Command.run loaded _) (fun _ _ _ => True) file []
        unfold Command.run
        rw [wp_bind]
        refine wp_mono (wp_apply_sensing name settings
          fun accepted values t hpolicy hvalues hcleared =>
            ⟨loaded, accepted, values, rfl, hpolicy, hvalues, hcleared⟩) ?_
        rintro (e | report) s' w' - <;> trivial
    rcases hsafe.guard hrun hissued htarget with ⟨kv, hkv, hputs⟩ | ⟨t, ht, hcleared⟩
    · obtain ⟨e, he, rfl⟩ := List.mem_map.mp hkv
      exact .inl ⟨e, he, hputs⟩
    · obtain ⟨loaded, accepted, values, hload, hpolicy, hvalues, hcleared⟩ := hcleared
      exact .inr ⟨loaded, accepted, values, t, hload, hpolicy, hvalues, ht, hcleared⟩
  · intro checksOwnership policy w report mem hrun
    have hsafe : wp sensing (thermallyGated [] 0 fun _ => True) (health
      ⟨inventory.adopt file, checksOwnership, some policy⟩) _ file [] := wp_health_sensing _ file []
    obtain ⟨-, hreport⟩ := hsafe.result hrun
    obtain ⟨rfl, hhot, howned⟩ := hreport report rfl
    refine ⟨report.temperature, rfl, ?_⟩
    rintro (⟨t, ht, hle⟩ | ⟨hnone, hrisk⟩)
    · exact hhot ⟨t, policy, ht, rfl, hle⟩
    · exact howned hnone hrisk

/-- A fan with two speeds. -/
def fan : Inventory where
  knobs := [plainKnob "fan" "FAN" ["slow", "fast"] []]
  nodup := by simp
  paired := by simp [plainKnob]

/-- The journal of an apply that has made it fast. -/
def fastFan : Journal :=
  ⟨some .high, [⟨"fan", .text "slow", some (.text "fast"), false, some (.text "fast")⟩]⟩

/-- Hardware at a temperature, on which everything works and the fan has a speed. -/
def fanAnswers (speed : String) (temperature : ℚ) (w : Readings) (_ : Journal) :
    (op : Request) → Except Failure op.Reply × Readings
  | .read _ => (.ok (.text speed), w)
  | .temperature => (.ok (some temperature), w ++ [.ok (some temperature)])
  | .write _ _ | .restoreValue _ _ | .save _ | .checkOwnership _ => (.ok (), w)
  | .writeMaximum _ => (.ok none, w)

private theorem fanAnswers_sensing (speed : String) (temperature : ℚ) (w : Readings) (s : Journal)
    (op : Request) : sensing w s op (fanAnswers speed temperature w s op).1
      (fanAnswers speed temperature w s op).2 := by
  cases op <;> rfl

/-- The first operations of an apply that makes the fan fast. -/
def fanRun (file : Journal) (speed : String) (temperature : ℚ) (n : ℕ) :
    Readings × Program Hardware Journal (Except Failure Unit × Journal) :=
  Program.runFor (fanAnswers speed temperature) n []
    ((Command.apply (some (plainPolicy [("FAN", "fast")])) false .high []).process fan file)

private theorem fanRun_steps (file : Journal) (speed : String) (temperature : ℚ) (n : ℕ) :
    Program.Steps sensing [] ((Command.apply (some (plainPolicy [("FAN", "fast")])) false .high
      []).process fan file) (fanRun file speed temperature n).1
        (fanRun file speed temperature n).2 :=
  .of_runFor (fanAnswers_sensing speed temperature) _ _ _

/-- What the fan is written to next. -/
def fanWrites (run : Readings × Program Hardware Journal (Except Failure Unit × Journal))
    (value : Value) : Bool :=
  run.2.issued?.any fun issued => issued.2 == .write "fan" value

private theorem fanWrites_issued
    {run : Readings × Program Hardware Journal (Except Failure Unit × Journal)} {value : Value}
    (h : fanWrites run value) : ∃ mem, run.2.issued? = some (mem, .write "fan" value) := by
  obtain ⟨⟨mem, op⟩, hissued, hop⟩ := Option.any_eq_true _ _ |>.mp h
  have heq : op = .write "fan" value := eq_of_beq hop
  rw [heq] at hissued
  exact ⟨mem, hissued⟩

/-- The health check of the fast fan. -/
def fanHealth (temperature : ℚ) :
    Readings × Program Hardware Journal (Except Failure HealthReport × Journal) :=
  Program.runFor (fanAnswers "fast" temperature) 5 []
    (health ⟨fan.adopt fastFan, false, some (plainPolicy [("FAN", "fast")])⟩ fastFan)

/-- The health check has returned, with a temperature. -/
def fanReports (temperature : ℚ) : Bool :=
  (fanHealth temperature).2.result?.any fun x =>
    match x.1 with
    | .ok report => report.temperature == some temperature
    | .error _ => false

private theorem fanReports_done {temperature : ℚ} (h : fanReports temperature) :
    ∃ report mem, report.temperature = some temperature ∧
      (fanHealth temperature).2 = .done (.ok report, mem) := by
  obtain ⟨⟨x, mem⟩, hresult, hx⟩ := Option.any_eq_true _ _ |>.mp h
  dsimp only at hx
  split at hx
  · rename_i report
    exact ⟨report, mem, eq_of_beq hx, Program.eq_done_of_result? hresult⟩
  · cases hx

/-- At 50 degrees the fan is made fast, and at 95 degrees the health check reports it. -/
theorem thermally_gated_fan : fanWrites (fanRun Journal.empty "slow" 50 5) (.text "fast") ∧
    (∃ report mem, (fanHealth 95).2 = .done (.ok report, mem) ∧ report.conflicts ≠ []) ∧
    ∃ loaded accepted values t, loadEngine fan Journal.empty = .ok loaded ∧
      some (plainPolicy [("FAN", "fast")]) = some accepted ∧
      resolvedValues loaded accepted (accepted.profiles .high) = .ok values ∧
      (fanRun Journal.empty "slow" 50 5).1[0]? = some (.ok t) ∧
      Cleared loaded accepted values t := by
  have hwrites : fanWrites (fanRun Journal.empty "slow" 50 5) (.text "fast") := by decide
  have hreports : fanReports 95 := by decide
  obtain ⟨report, mem', htemperature, hdone⟩ := fanReports_done hreports
  obtain ⟨t, ht, hconflicts⟩ := (thermally_gated fan fastFan).2 false
    (plainPolicy [("FAN", "fast")]) (fanHealth 95).1 report mem'
    (hdone ▸ .of_runFor (fanAnswers_sensing "fast" 95) _ _ _)
  have hlog : (fanHealth 95).1 = [.ok (some 95)] := by decide
  rw [hlog] at ht
  refine ⟨hwrites, ⟨report, mem', hdone, hconflicts (.inl ⟨95, ?_, by decide⟩)⟩, ?_⟩
  · simpa using ht.symm
  obtain ⟨mem, hissued⟩ := fanWrites_issued hwrites
  rcases (thermally_gated fan Journal.empty).1 _ _ _ _ _ _ _ _
    (fanRun_steps Journal.empty "slow" 50 5) hissued (by simp [Request.target]) with
      ⟨e, he, -⟩ | hcleared
  · cases he
  · exact hcleared

/-- At 95 degrees an apply writes all the same when an earlier one has left its journal: it gives
the fan back. -/
theorem gives_back_when_hot : fanWrites (fanRun fastFan "fast" 95 5) (.text "slow") ∧
    Program.Steps sensing [] ((Command.apply (some (plainPolicy [("FAN", "fast")])) false .high
      []).process fan fastFan) (fanRun fastFan "fast" 95 5).1 (fanRun fastFan "fast" 95 5).2 ∧
    ∀ answer ∈ (fanRun fastFan "fast" 95 5).1, answer = .ok (some 95) := by
  refine ⟨by decide, fanRun_steps fastFan "fast" 95 5, ?_⟩
  have hreadings : (fanRun fastFan "fast" 95 5).1 = [.ok (some 95)] := by decide
  rw [hreadings]
  simp

end Preseed.HardwareTuning
