import Preseed.HardwareTuning.Daemon

/-!
# What the broker's programs do to its memory

Whatever the helpers answer, a program of the broker never touches the leases, and
it either leaves the holds alone or clears all of them and starts a new generation.
Only the explicit operator actions clear a fault.
-/

namespace Preseed.HardwareTuning

open Effects

/-- How the memory may move: leases stay, holds stay or are cleared under a new generation, and
faults stay unless they may be cleared. -/
structure Moves (clears : Bool) (s s' : Broker) : Prop where
  /-- The leases stay. -/
  leases : s'.leases = s.leases
  /-- The holds stay, or are cleared under a new generation. -/
  holds : s'.powerGeneration = s.powerGeneration ∧ s'.powerHolds = s.powerHolds ∨
    s.powerGeneration < s'.powerGeneration ∧ s'.powerHolds = fun _ => none
  /-- The faults stay. -/
  faults : clears = false → ∀ vendor, (s.faults vendor).isSome → (s'.faults vendor).isSome

instance (clears : Bool) : IsPreorder Broker (Moves clears) where
  refl _ := ⟨rfl, .inl ⟨rfl, rfl⟩, fun _ _ => id⟩
  trans s s' s'' h h' := by
    refine ⟨h'.leases.trans h.leases, ?_, fun hc v => h'.faults hc v ∘ h.faults hc v⟩
    rcases h.holds with ⟨hgen, hholds⟩ | ⟨hgen, hholds⟩ <;>
      rcases h'.holds with ⟨hgen', hholds'⟩ | ⟨hgen', hholds'⟩
    · exact .inl ⟨hgen'.trans hgen, hholds'.trans hholds⟩
    · exact .inr ⟨by omega, hholds'⟩
    · exact .inr ⟨by omega, hholds'.trans hholds⟩
    · exact .inr ⟨by omega, hholds'⟩

/-- A request clears faults: the explicit starts, stops, resets and selections. -/
def ControlRequest.clearsFaults : ControlRequest → Bool
  | .autoStart _ | .bootEnable _ | .autoStop | .bootDisable | .reset | .manual _ _ _
  | .powerProfile _ => true
  | .status | .report | .profilesReset | .pause | .resume => false

section Programs

variable {config : Config} {clears : Bool} {vendor : Vendor}

/-- A change of the memory that touches neither selection nor faults. -/
private theorem moves_of_same {s s' : Broker} (hleases : s'.leases = s.leases)
    (hgeneration : s'.powerGeneration = s.powerGeneration) (hholds : s'.powerHolds = s.powerHolds)
    (hfaults : clears = false → ∀ v, (s.faults v).isSome → (s'.faults v).isSome) :
    Moves clears s s' :=
  ⟨hleases, .inl ⟨hgeneration, hholds⟩, hfaults⟩

private theorem same {s s' : Broker} (hleases : s'.leases = s.leases)
    (hgeneration : s'.powerGeneration = s.powerGeneration) (hholds : s'.powerHolds = s.powerHolds)
    (hfaults : s'.faults = s.faults) : Moves clears s s' :=
  moves_of_same hleases hgeneration hholds fun _ _ h => hfaults ▸ h

theorem keeps_child {α : Type} {process : BrokerAct (Child α)}
    (h : Act.Keeps (Moves clears) process) : Act.Keeps (Moves clears) (Broker.child process) := by
  unfold Broker.child
  refine .bind .get fun _ => .ite (.raise _) (.bind h fun answer => ?_)
  cases answer with
  | ok result => exact .pure _
  | failed text => exact .raise _
  | notStarted text => exact .raise _
  | lost => exact .bind (.modify fun _ => same rfl rfl rfl rfl) fun _ => .raise _
  | cancelled started => exact .bind (.modify fun _ => same rfl rfl rfl rfl) fun _ => .raise _

theorem keeps_policy (act : PolicyAction) : Act.Keeps (Moves clears) (Broker.policy act) :=
  .bind (keeps_child (.perform _)) fun _ => .modify fun _ => same rfl rfl rfl rfl

theorem keeps_autostartEnabled : Act.Keeps (Moves clears) Broker.autostartEnabled := by
  refine .bind .get fun s => ?_
  cases s.policyState with
  | some status => exact .pure _
  | none => exact .perform _

theorem keeps_save : Act.Keeps (Moves clears) Broker.save :=
  .bind .get fun _ => .bind (.perform _) fun _ => .lift _

theorem keeps_attempt {body : BrokerAct Unit} {handler : Failure → BrokerAct Unit}
    (hbody : Act.Keeps (Moves clears) body) (hhandler : ∀ e, Act.Keeps (Moves clears) (handler e)) :
    Act.Keeps (Moves clears) (attempt body handler) :=
  .handleIf hbody hhandler

theorem keeps_restore : Act.Keeps (Moves clears) (Broker.restore vendor) :=
  .bind (keeps_child (.perform _)) fun _ => .modify fun _ => same rfl rfl rfl rfl

theorem keeps_fault (exc : Failure) : Act.Keeps (Moves clears) (Broker.fault vendor exc) := by
  refine .bind (.handleIf (.bind keeps_restore fun _ => .pure _) fun _ =>
    .bind (.modify fun _ => same rfl rfl rfl rfl) fun _ => .pure _) fun _ =>
      .bind (.modify fun _ => moves_of_same rfl rfl rfl fun _ v h => ?_) fun _ => keeps_save
  by_cases hsame : v = vendor
  · simp [hsame]
  · simpa [hsame] using h

theorem keeps_recover : Act.Keeps (Moves clears) (Broker.recover vendor) :=
  keeps_attempt keeps_restore keeps_fault

/-- Clearing the holds begins a new generation. -/
private theorem moves_cleared {s s' : Broker} (hleases : s'.leases = s.leases)
    (hgeneration : s'.powerGeneration = s.powerGeneration + 1)
    (hholds : s'.powerHolds = fun _ => none)
    (hfaults : s'.faults = s.faults) : Moves clears s s' :=
  ⟨hleases, .inr ⟨by omega, hholds⟩, fun _ _ h => hfaults ▸ h⟩

theorem keeps_stopTuning {disable clearFaults : Bool} (hclears : clearFaults = true → clears = true) :
    Act.Keeps (Moves clears) (Broker.stopTuning config disable clearFaults) := by
  refine .bind (.modify fun _ => moves_cleared rfl rfl rfl rfl) fun _ =>
    .bind (.modify fun _ => moves_of_same rfl rfl rfl fun hc v h => ?_) fun _ =>
      .bind keeps_save fun _ => .bind (.forEach fun _ => keeps_recover) fun _ => .bind .get fun _ =>
        .bind (.when (keeps_attempt (.bind (keeps_policy _) fun _ =>
          .modify fun _ => same rfl rfl rfl rfl) fun _ =>
            .modify fun _ => same rfl rfl rfl rfl)) fun _ => keeps_save
  cases clearFaults with
  | false => exact h
  | true =>
    rw [hclears rfl] at hc
    cases hc

theorem keeps_reconcileVendor {health active : Bool} {idle : Option Profile} :
    Act.Keeps (Moves clears) (Broker.reconcileVendor health active idle vendor) := by
  refine .bind .get fun _ => .when (keeps_attempt (.bind ?_ fun _ => ?_) keeps_fault)
  · exact .bind .get fun _ => .when (.bind (keeps_child (.perform _)) fun _ => .when (.raise _))
  · refine .bind .get fun _ => .when (.bind (.when keeps_restore) fun _ => ?_)
    split
    · exact .pure _
    · exact .bind (keeps_child (.perform _)) fun _ => .modify fun _ => same rfl rfl rfl rfl

theorem keeps_reconcile {health : Bool} :
    Act.Keeps (Moves clears) (Broker.reconcile config health) := by
  refine .bind (.perform _) fun _ => .bind .get fun _ =>
    .bind (.when (.bind (.modify fun _ => same rfl rfl rfl rfl) fun _ => keeps_save)) fun _ =>
      .bind (.modify fun _ => same rfl rfl rfl rfl) fun _ => .bind (.perform _) fun _ =>
        .bind (.forEach fun _ => keeps_reconcileVendor) fun _ => ?_
  exact .bind .get fun _ => .ite (keeps_stopTuning nofun) (.when (keeps_attempt (keeps_policy _)
    fun _ => .bind (.modify fun _ => same rfl rfl rfl rfl) fun _ => keeps_save))

theorem keeps_giveUp {disable : Bool} {exc : Failure} :
    Act.Keeps (Moves clears) (Broker.giveUp config disable exc) :=
  .bind (keeps_stopTuning nofun) fun _ => .modify fun _ => same rfl rfl rfl rfl

theorem keeps_startTuning {boot : Bool} :
    Act.Keeps (Moves true) (Broker.startTuning config boot) := by
  refine .bind .get fun _ => .ite (.raise _) (.bind keeps_autostartEnabled fun _ =>
    .ite (keeps_policy _) (.bind (.modify fun _ => moves_cleared rfl rfl rfl rfl) fun _ =>
      .bind (.modify fun _ => moves_of_same rfl rfl rfl nofun) fun _ => .bind keeps_save fun _ =>
        .bind (.forEach fun _ => keeps_recover) fun _ => .bind .get fun _ =>
          .when (keeps_attempt ?_ fun _ => .bind keeps_giveUp fun _ => keeps_save)))
  exact .bind (keeps_policy _) fun _ => .bind (.modify fun _ => same rfl rfl rfl rfl) fun _ =>
    .bind keeps_save fun _ => .bind keeps_reconcile fun _ => .bind .get fun _ => .when (keeps_policy _)

theorem keeps_settle : Act.Keeps (Moves clears) (Broker.settle config) := by
  refine .bind .get fun s => ?_
  cases s.policyRelease with
  | some release => exact .bind (keeps_stopTuning nofun) fun _ => keeps_save
  | none =>
    refine .bind (.when (.ite ?_ (.ite ?_ (.when (keeps_stopTuning nofun))))) fun _ => keeps_save
    · exact keeps_attempt (.bind keeps_autostartEnabled fun _ => .bind (keeps_policy _) fun _ =>
        .bind keeps_reconcile fun _ => .bind .get fun _ => .when (keeps_policy _)) fun _ => keeps_giveUp
    · exact .bind .get fun _ => .bind (.when (keeps_policy _)) fun _ => keeps_reconcile

theorem keeps_acquire : Act.Keeps (Moves clears) (Broker.acquire config) :=
  .bind (.forEach fun _ => keeps_restore) fun _ => .bind (keeps_policy _) fun _ =>
    .modify fun _ => same rfl rfl rfl rfl

theorem keeps_preparePowerProfile : Act.Keeps (Moves clears) (Broker.preparePowerProfile config) := by
  refine .ite (.raise _) (.bind .get fun _ => .ite (.raise _) (.bind (keeps_policy _) fun _ =>
    .bind .get fun _ => .when (.bind (.modify fun _ => same rfl rfl rfl rfl) fun _ =>
      .bind keeps_save fun _ => ?_)))
  exact keeps_attempt (.bind keeps_acquire fun _ => keeps_save) fun _ =>
    .bind keeps_giveUp fun _ => .bind keeps_save fun _ => .raise _

theorem keeps_publicProfile {profile : Profile} :
    Act.Keeps (Moves true) (Broker.publicProfile config profile) :=
  .bind keeps_preparePowerProfile fun _ => .bind (.modify fun _ => moves_cleared rfl rfl rfl rfl) fun _ =>
    .bind (.modify fun _ => moves_of_same rfl rfl rfl nofun) fun _ => .bind keeps_save fun _ =>
      .bind keeps_reconcile fun _ => .bind .get fun _ => .when (.raise _)

theorem keeps_selectManual {profile : Profile} :
    Act.Keeps (Moves true) (Broker.selectManual config vendor profile) :=
  .bind (.modify fun _ => moves_of_same rfl rfl rfl nofun) fun _ => .bind keeps_recover fun _ =>
    .bind keeps_save fun _ => keeps_reconcile

theorem keeps_manualAction {profile : Profile} {requiresOwner : Bool} :
    Act.Keeps (Moves true) (Broker.manualAction config vendor profile requiresOwner) := by
  refine .bind (.modify fun _ => moves_cleared rfl rfl rfl rfl) fun _ => .bind .get fun _ =>
    .ite (.raise _) (.ite (.bind (.modify fun _ => same rfl rfl rfl rfl) fun _ => .bind keeps_save fun _ =>
      .bind (.handleIf (.bind keeps_acquire fun _ => .pure _) fun _ => ?_) fun _ =>
        .when keeps_selectManual) keeps_selectManual)
  exact .bind keeps_giveUp fun _ => .bind keeps_save fun _ => .pure _

theorem keeps_saveAndReconcile : Act.Keeps (Moves clears) (Broker.saveAndReconcile config) :=
  .bind keeps_save fun _ => keeps_reconcile

theorem keeps_perform (request : ControlRequest) :
    Act.Keeps (Moves request.clearsFaults) (Broker.perform config request) := by
  cases request with
  | status => exact .pure _
  | report => exact .forEach fun _ => keeps_attempt (keeps_child (.perform _)) fun _ => .pure _
  | autoStart confirmed => exact keeps_startTuning
  | bootEnable confirmed => exact keeps_startTuning
  | autoStop => exact keeps_stopTuning fun _ => rfl
  | bootDisable => exact keeps_stopTuning fun _ => rfl
  | reset => exact keeps_stopTuning fun _ => rfl
  | manual vendor profile confirmed => exact keeps_manualAction
  | profilesReset =>
    exact .bind (.modify fun _ => moves_cleared rfl rfl rfl rfl) fun _ =>
      .bind (.modify fun _ => same rfl rfl rfl rfl) fun _ => keeps_saveAndReconcile
  | pause =>
    exact .bind (.modify fun _ => same rfl rfl rfl rfl) fun _ => .bind .get fun _ =>
      .bind (.forEach fun _ => keeps_recover) fun _ => keeps_saveAndReconcile
  | resume => exact .bind (.modify fun _ => same rfl rfl rfl rfl) fun _ => keeps_saveAndReconcile
  | powerProfile profile => exact keeps_publicProfile

theorem keeps_action (request : ControlRequest) (peer : Peer) :
    Act.Keeps (Moves request.clearsFaults) (Broker.action config request peer) := by
  refine .ite (.raise _) (.bind (.when (.bind (.perform _) fun _ => .when (.raise _))) fun _ =>
    .bind ?_ fun _ => .bind .get fun _ => .ite (.raise _) (keeps_perform request))
  unfold Broker.askPolicy
  split
  · exact .pure _
  · exact keeps_attempt (keeps_policy _) fun _ => .ite (.raise _) (.modify fun _ => same rfl rfl rfl rfl)

theorem keeps_prepareHold {peer : Peer} :
    Act.Keeps (Moves clears) (Broker.prepareHold config peer) :=
  .ite (.raise _) (.bind (.perform _) fun _ => .ite (.raise _) keeps_preparePowerProfile)

theorem keeps_reconcileHold : Act.Keeps (Moves clears) (Broker.reconcileHold config) :=
  .bind keeps_reconcile fun _ => .bind .get fun _ => .when (.raise _)

theorem keeps_shutdown : Act.Keeps (Moves clears) (Broker.shutdown config) :=
  .forEach fun _ => keeps_attempt keeps_restore fun _ => .pure _

/-- The recovery of a startup begins without leases, holds and faults. -/
theorem follows_recoverAll (config : Config) (active : Bool) :
    (Broker.recoverAll config (.initial active)).Follows (Moves false) (.initial active) := by
  have hload : (Broker.load (.initial active)).Follows (Moves false) (.initial active) := by
    refine ⟨refl_of _ _, fun (answer : Except Failure (Option Controls)) => ?_⟩
    rcases answer with e | _ | data
    · exact refl_of _ _
    · exact refl_of _ _
    · refine ⟨refl_of _ _, fun (seat : Bool) => ?_⟩
      exact ⟨rfl, .inl ⟨rfl, rfl⟩, nofun⟩
  exact Act.Keeps.bind_from hload fun _ => .bind (keeps_policy _) fun _ =>
    .bind (.when (.bind keeps_autostartEnabled fun _ => .modify fun _ => same rfl rfl rfl rfl)) fun _ =>
      .forEach fun _ => keeps_recover

end Programs

end Preseed.HardwareTuning
