import Preseed.HardwareTuning.Services

/-!
# The broker

`Broker` of `broker.py`, as programs over `Services`. The memory is the broker's
own: the selection, which profile is applied to a vendor, which vendors own
controls or wait for their recovery, and what the policy helper said last. Every
`await` of a helper is an operation, so a program may be stopped or watched there.
-/

namespace Preseed.HardwareTuning

open Effects

/-- `Broker`. -/
structure Broker extends Selection where
  /-- The profile applied to a vendor. -/
  applied : Vendor → Option Profile
  /-- The vendor owns controls. -/
  owned : Vendor → Bool
  /-- The vendors whose recovery has failed. -/
  recoveryPending : Finset Vendor
  /-- The seat was active when it was last looked at. -/
  wasActive : Bool
  /-- The last result of the policy helper. -/
  policyState : Option PolicyStatus
  /-- The last error of the policy helper. -/
  policyError : String
  /-- A handback that is still to be done. -/
  policyRelease : Option Release
  /-- A helper process was lost; no further helper may run. -/
  childOutcomeUnknown : Bool

/-- `Broker.__init__`. -/
def Broker.initial (active : Bool) : Broker where
  toSelection := .initial
  applied _ := none
  owned _ := false
  recoveryPending := ∅
  wasActive := active
  policyState := none
  policyError := ""
  policyRelease := none
  childOutcomeUnknown := false

/-- A stateful broker program. -/
abbrev BrokerAct := Act Services Broker Failure

/-- Issue an operation. -/
def call (op : Service) : BrokerAct op.Reply := @Act.perform Services Broker Failure op

/-- `try: body except Exception as exc: handler`. -/
def attempt (body : BrokerAct Unit) (handler : Failure → BrokerAct Unit) : BrokerAct Unit :=
  Act.handleIf body Failure.isException handler

/-- `str(exc)[:8192]`. -/
def clip (text : String) : String := String.ofList (text.toList.take 8192)

namespace Broker

/-- What is saved in the controls file. -/
def controls (s : Broker) : Controls where
  automatic := s.automatic
  manual := s.manual
  paused := s.paused
  faults := s.faults
  policyRelease := s.policyRelease
  policyError := s.policyError

/-- `self.policy_state.get("claimed")`. -/
def claimed (s : Broker) : Bool := s.policyState.any PolicyStatus.claimed

/-- `any(self.owned.values())`. -/
def anyOwned (s : Broker) (config : Config) : Bool := config.vendors.any s.owned

/-- `self.status()["faults"]` is not empty. -/
def anyFault (s : Broker) (config : Config) : Bool :=
  (config.vendors.any fun vendor => (s.faults vendor).isSome) || s.policyError ≠ ""

/-- `message + ("; recovery: " + self.policy_error if self.policy_error else "")`. -/
def withRecovery (s : Broker) (message : String) : String :=
  clip (message ++ if s.policyError ≠ "" then "; recovery: " ++ s.policyError else "")

end Broker

/-- The peers the socket admits: root and the configured desktop user. -/
inductive Peer
  | root | desktop
  deriving DecidableEq

/-- The control requests besides leases and holds. -/
inductive ControlRequest
  | status
  | report
  | autoStart (confirmed : Bool)
  | bootEnable (confirmed : Bool)
  | autoStop
  | bootDisable
  | reset
  | manual (vendor : Vendor) (profile : Profile) (confirmed : Bool)
  | profilesReset
  | pause
  | resume
  | powerProfile (profile : Profile)
  deriving DecidableEq

namespace ControlRequest

/-- `Broker.validate_request`. -/
def valid (config : Config) : ControlRequest → Bool
  | .manual vendor _ _ => config.vendors.contains vendor
  | .powerProfile profile => profile ∈ [.silent, .balanced, .performance]
  | _ => true

/-- The request is for root. -/
def rootOnly : ControlRequest → Bool
  | .pause | .resume => true
  | _ => false

/-- The request needs an active seat, unless root makes it. -/
def needsSeat : ControlRequest → Bool
  | .status | .reset | .autoStop | .profilesReset | .bootDisable => false
  | _ => true

/-- The request asks the policy helper first; the value says whether an error of the helper ends
it. -/
def asksPolicy : ControlRequest → Option Bool
  | .status | .report => some false
  | .autoStart _ | .bootEnable _ | .manual _ _ _ => some true
  | _ => none

/-- `requires_owner`. -/
def requiresOwner (config : Config) : ControlRequest → Bool
  | .autoStart _ | .bootEnable _ => config.vendors.contains .intel
  | .manual vendor _ _ => config.vendors.contains .intel && vendor = .intel
  | _ => false

/-- `request.get("confirm_policy_owner") is True`. -/
def confirmed : ControlRequest → Bool
  | .autoStart confirmed | .bootEnable confirmed | .manual _ _ confirmed => confirmed
  | _ => false

/-- The request enables tuning at boot. -/
def enablesBoot : ControlRequest → Bool
  | .bootEnable _ => true
  | _ => false

end ControlRequest

/-! ### Helper processes -/

namespace Broker

/-- `Broker.child`. -/
def child {α : Type} (process : BrokerAct (Child α)) : BrokerAct α := do
  let s ← Act.get
  if s.childOutcomeUnknown then
    Act.raise (tuningError "helper outcome unknown; reconcile the owning service before further hardware operations")
  else do
    match ← process with
    | .ok result => pure result
    | .failed text => Act.raise (tuningError text)
    | .notStarted text => Act.raise ⟨.osError, text⟩
    | .lost =>
      Act.modify fun s => { s with childOutcomeUnknown := true }
      Act.raise (tuningError "helper outcome unknown; further hardware operations blocked until owning service reconciliation")
    | .cancelled started =>
      Act.modify fun s => { s with childOutcomeUnknown := s.childOutcomeUnknown || started }
      Act.raise ⟨.interrupted, ""⟩

/-- `self.worker(vendor, "reset")`. -/
def workerReset (vendor : Vendor) : BrokerAct Unit := child (call (.reset vendor))

/-- `self.worker(vendor, "apply", profile)`; the result says whether controls are owned. -/
def workerApply (vendor : Vendor) (profile : Profile) : BrokerAct Bool :=
  child (call (.apply vendor profile))

/-- `self.worker(vendor, "health")`; the result is the list of conflicts. -/
def workerHealth (vendor : Vendor) : BrokerAct (List String) := child (call (.health vendor))

/-- `self.worker(vendor, "report")`. -/
def workerReport (vendor : Vendor) : BrokerAct Unit := child (call (.report vendor))

/-- `Broker.policy`. -/
def policy (action : PolicyAction) : BrokerAct Unit := do
  let status ← child (call (.policy action))
  Act.modify fun s => { s with policyState := some status }

/-- `self.seat.active()`. -/
def seatActive : BrokerAct Bool := call .seatActive

/-- `on_ac()`. -/
def onAc : BrokerAct Bool := call .onAc

/-- `Broker.autostart_enabled`. -/
def autostartEnabled : BrokerAct Bool := do
  let s ← Act.get
  match s.policyState with
  | some status => pure (status.autostartUnit.file = .enabled)
  | none => call .autostartLink

/-- Write the controls file. -/
def saveControls (controls : Controls) : BrokerAct (Except Failure Unit) :=
  call (.save controls)

/-- Read the controls file. -/
def loadControls : BrokerAct (Except Failure (Option Controls)) := call .load

/-- `Broker.save`. -/
def save : BrokerAct Unit := do
  let s ← Act.get
  let answer ← saveControls s.controls
  Act.lift answer

/-- The memory with the content of the controls file. A manual selection survives only with the
seat that made it. -/
def loaded (s : Broker) (data : Controls) (active : Bool) : Broker :=
  { s with
    automatic := data.automatic
    manual := if active then data.manual else fun _ => none
    paused := data.paused
    faults := data.faults
    policyRelease := data.policyRelease
    policyError := data.policyError }

/-- `Broker.load`: whether there was a controls file. -/
def load : BrokerAct Bool := do
  let answer ← loadControls
  match ← Act.lift answer with
  | none => pure false
  | some data => do
    let active ← seatActive
    Act.modify fun s => s.loaded data active
    pure true

/-! ### Restoring -/

/-- `Broker.restore`. -/
def restore (vendor : Vendor) : BrokerAct Unit := do
  workerReset vendor
  Act.modify fun s => { s with
    applied := Function.update s.applied vendor none
    owned := Function.update s.owned vendor false
    recoveryPending := s.recoveryPending.erase vendor }

/-- `Broker.fault`: a fault is recorded after one attempt to restore the vendor. -/
def fault (vendor : Vendor) (exc : Failure) : BrokerAct Unit := do
  let error ← Act.handleIf (do restore vendor; pure exc.text) Failure.isException fun recovery => do
    Act.modify fun s => { s with recoveryPending := insert vendor s.recoveryPending }
    pure (exc.text ++ "; recovery still pending: " ++ recovery.text)
  Act.modify fun s => { s with faults := Function.update s.faults vendor (some (clip error)) }
  save

/-- `try: await self.restore(vendor) except Exception as exc: await self.fault(vendor, exc)`. -/
def recover (vendor : Vendor) : BrokerAct Unit := attempt (restore vendor) (fault vendor)

/-- `self.selection.clear_power_holds()`. -/
def clearHolds (s : Broker) : Broker := { s with toSelection := s.clearPowerHolds }

/-- `Broker.stop_tuning`. -/
def stopTuning (config : Config) (disable clearFaults : Bool) : BrokerAct Unit := do
  let release : Release := if disable then .disable else .stop
  Act.modify fun s => { s with
    toSelection := s.clearPowerHolds
    policyRelease := some release
    policyError := "" }
  Act.modify fun s => { s with
    automatic := false
    manual := fun _ => none
    faults := if clearFaults then fun _ => none else s.faults }
  -- The intent is durable before anything is restored or handed back.
  save
  Act.forEach config.vendors recover
  let s ← Act.get
  Act.when (s.recoveryPending = ∅ ∧ s.anyOwned config = false)
    (attempt
      (do policy release.action
          Act.modify fun s => { s with policyRelease := none })
      fun exc => Act.modify fun s => { s with policyError := clip exc.text })
  save

/-! ### Reconciling -/

/-- The health check of `Broker.reconcile`: on every poll, and before a profile is changed. -/
def checkHealth (health : Bool) (vendor : Vendor) (desired : Option Profile) : BrokerAct Unit := do
  let s ← Act.get
  Act.when (s.owned vendor ∧ (health ∨ desired.isSome ∧ desired ≠ s.applied vendor) ∧
      s.faults vendor = none) (do
    let conflicts ← workerHealth vendor
    Act.when (conflicts ≠ []) (Act.raise (tuningError (join "; " conflicts))))

/-- Apply a profile. -/
def install (vendor : Vendor) (profile : Profile) : BrokerAct Unit := do
  let controls ← workerApply vendor profile
  Act.modify fun s => { s with
    applied := Function.update s.applied vendor (some profile)
    owned := Function.update s.owned vendor controls }

/-- The change of profile of `Broker.reconcile`. Restoring first also releases what the next
profile leaves alone. -/
def changeProfile (vendor : Vendor) (desired : Option Profile) : BrokerAct Unit := do
  let s ← Act.get
  Act.when (desired ≠ s.applied vendor) (do
    Act.when ((s.applied vendor).isSome ∨ s.owned vendor) (restore vendor)
    match desired with
    | none => pure ()
    | some profile => install vendor profile)

/-- The round of `Broker.reconcile` for one vendor. A faulted vendor waits for an explicit
retry, and nothing is applied while a handback is outstanding. -/
def reconcileVendor (health active : Bool) (idle : Option Profile) (vendor : Vendor) :
    BrokerAct Unit := do
  let s ← Act.get
  Act.when (s.faults vendor = none)
    (attempt
      (do let desired := if s.policyRelease.isSome then none else s.desired vendor active idle
          checkHealth health vendor desired
          changeProfile vendor desired)
      (fault vendor))

/-- The end of `Broker.reconcile`: hand the policy back when it is of no more use. -/
def handBack (config : Config) : BrokerAct Unit := do
  let s ← Act.get
  if (s.faults .intel).isSome ∧ s.claimed ∧ (s.automatic ∨ s.anyManual config ∨ s.held) then
    stopTuning config false false
  else
    Act.when (s.automatic = false ∧ s.anyManual config = false ∧ s.held = false ∧ s.claimed ∧
        s.policyRelease = none ∧ s.recoveryPending = ∅ ∧ s.anyOwned config = false)
      (attempt (policy .stop) fun exc => do
        Act.modify fun s => { s with policyRelease := some .stop, policyError := clip exc.text }
        save)

/-- `Broker.reconcile`. -/
def reconcile (config : Config) (health : Bool) : BrokerAct Unit := do
  let active ← seatActive
  let s ← Act.get
  Act.when (s.wasActive ∧ active = false) (do
    Act.modify fun s => { s with manual := fun _ => none }
    save)
  Act.modify fun s => { s with wasActive := active }
  let ac ← onAc
  Act.forEach config.vendors
    (reconcileVendor health active (if ac then config.idleAc else config.idleBattery))
  handBack config

/-! ### Starting -/

/-- The automatic mode is on, at boot too, and nothing is left to do. -/
def started (s : Broker) (config : Config) (boot oldBoot : Bool) : Bool :=
  boot && oldBoot && s.automatic && !s.anyFault config && s.recoveryPending = ∅ && s.claimed &&
    (config.customApi || !(config.vendors.contains .intel) ||
      s.policyState.any fun status => status.ppd.file = .masked &&
        (status.ppd.active = .inactive || status.ppd.active = .failed))

/-- The command that takes the policy. -/
def prepareAction (boot : Bool) : PolicyAction := if boot then .prepareBoot else .prepareRuntime

/-- The `except` of the paths that take the policy: stop, and report both errors. -/
def giveUp (config : Config) (disable : Bool) (exc : Failure) : BrokerAct Unit := do
  stopTuning config disable false
  Act.modify fun s => { s with policyError := s.withRecovery exc.text }

/-- `Broker.start_tuning`. -/
def startTuning (config : Config) (boot : Bool) : BrokerAct Unit := do
  let s ← Act.get
  if s.paused then
    Act.raise (tuningError "tuning is paused for sleep; retry after resume")
  else do
    let oldBoot ← autostartEnabled
    if s.started config boot oldBoot then policy .activate
    else do
      Act.modify clearHolds
      Act.modify fun s => { s with
        automatic := false
        faults := fun _ => none
        policyError := ""
        policyRelease := some .stop }
      save
      Act.forEach config.vendors recover
      let s ← Act.get
      -- The policy stays excluded until all owned controls are recovered.
      Act.when (s.recoveryPending = ∅)
        (attempt
          (do policy (prepareAction (boot || oldBoot))
              Act.modify fun s => { s with automatic := true, policyRelease := none }
              save
              reconcile config false
              let s ← Act.get
              Act.when s.automatic (policy .activate))
          fun exc => do
            giveUp config (boot && !oldBoot) exc
            save)

/-- The first part of `Broker.initialize`: what is known, and the recovery of every vendor. Only
a new boot takes the automatic mode from the autostart preference. -/
def recoverAll (config : Config) : BrokerAct Unit := do
  let recovered ← load
  policy .status
  Act.when (recovered = false) (do
    let automatic ← autostartEnabled
    Act.modify fun s => { s with automatic := automatic })
  Act.forEach config.vendors recover

/-- The automatic mode of `Broker.initialize`, which keeps historical faults. -/
def resumeAutomatic (config : Config) : BrokerAct Unit :=
  attempt
    (do let boot ← autostartEnabled
        policy (prepareAction boot)
        reconcile config false
        let s ← Act.get
        Act.when s.automatic (policy .activate))
    (giveUp config false)

/-- The manual mode of `Broker.initialize`. -/
def resumeManual (config : Config) : BrokerAct Unit := do
  let s ← Act.get
  Act.when (s.manual .intel).isSome (policy .prepareRuntime)
  reconcile config false

/-- The second part of `Broker.initialize`: back to what was asked for. -/
def settle (config : Config) : BrokerAct Unit := do
  let s ← Act.get
  match s.policyRelease with
  | some release => stopTuning config (release = .disable) false
  | none =>
    Act.when (s.recoveryPending = ∅)
      (if s.automatic then resumeAutomatic config
      else if s.anyManual config then resumeManual config
      else Act.when s.claimed (stopTuning config false false))
  save

/-! ### Requests -/

/-- Take the policy for a request that needs it: record a handback, restore every vendor, then
prepare. -/
def acquire (config : Config) : BrokerAct Unit := do
  Act.forEach config.vendors restore
  policy .prepareRuntime
  Act.modify fun s => { s with policyRelease := none, policyError := "" }

/-- `Broker.prepare_power_profile`. -/
def preparePowerProfile (config : Config) : BrokerAct Unit := do
  if config.customApi = false then
    Act.raise (tuningError "custom Power Profiles provider is not installed")
  else do
    let s ← Act.get
    if s.paused ∨ s.recoveryPending ≠ ∅ ∨ s.policyRelease.isSome ∨ s.childOutcomeUnknown then
      Act.raise (tuningError "hardware recovery or sleep coordination is pending")
    else do
      policy .status
      let s ← Act.get
      Act.when (s.claimed = false) (do
        Act.modify fun s => { s with policyRelease := some .stop }
        save
        attempt
          (do acquire config
              save)
          fun exc => do
            giveUp config false exc
            save
            Act.raise (tuningError "custom policy acquisition failed; inspect hardware tuning status"))

/-- `Broker.public_profile`. -/
def publicProfile (config : Config) (profile : Profile) : BrokerAct Unit := do
  preparePowerProfile config
  Act.modify clearHolds
  -- An explicit selection retries the thermal check.
  Act.modify fun s => { s with manual := fun _ => some profile, faults := fun _ => none }
  save
  reconcile config false
  let s ← Act.get
  Act.when (s.anyFault config ∨ s.recoveryPending ≠ ∅ ∨
      ∃ vendor ∈ config.vendors, s.applied vendor ≠ some profile)
    (Act.raise (tuningError "custom profile could not be applied; inspect hardware tuning status"))

/-- The end of the actions that change the selection. -/
def saveAndReconcile (config : Config) : BrokerAct Unit := do
  save
  reconcile config false

/-- The memory with a manual selection of a vendor, whose fault is to be retried. -/
def selecting (s : Broker) (vendor : Vendor) (profile : Profile) : Broker :=
  { s with
    manual := Function.update s.manual vendor (some profile)
    faults := Function.update s.faults vendor none }

/-- The manual selection, once nothing stands against it. -/
def selectManual (config : Config) (vendor : Vendor) (profile : Profile) : BrokerAct Unit := do
  Act.modify fun s => s.selecting vendor profile
  recover vendor
  saveAndReconcile config

/-- `Broker.action` for a manual selection. -/
def manualAction (config : Config) (vendor : Vendor) (profile : Profile) (requiresOwner : Bool) :
    BrokerAct Unit := do
  Act.modify clearHolds
  let s ← Act.get
  if s.policyRelease.isSome then
    Act.raise (tuningError "a policy handback is pending; complete Stop or Reset first")
  else if requiresOwner ∧ s.claimed = false then do
    Act.modify fun s => { s with policyRelease := some .stop }
    save
    let acquired ← Act.handleIf (do acquire config; pure true) Failure.isException fun exc => do
      giveUp config false exc
      save
      pure false
    Act.when acquired (selectManual config vendor profile)
  else selectManual config vendor profile

/-- `Broker.action` after its checks. -/
def perform (config : Config) : ControlRequest → BrokerAct Unit
  | .status => pure ()
  | .report => Act.forEach config.vendors fun vendor =>
    attempt (workerReport vendor) fun _ => pure ()
  | .powerProfile profile => publicProfile config profile
  | .autoStart _ => startTuning config false
  | .bootEnable _ => startTuning config true
  | .autoStop => stopTuning config false true
  | .bootDisable | .reset => stopTuning config true true
  | request@(.manual vendor profile _) =>
    manualAction config vendor profile (request.requiresOwner config)
  | .profilesReset => do
    Act.modify clearHolds
    Act.modify fun s => { s with manual := fun _ => none }
    saveAndReconcile config
  | .pause => do
    Act.modify fun s => { s with paused := true }
    -- Pause retries a pending recovery once; a fault is not cleared by resume.
    let s ← Act.get
    Act.forEach (config.vendors.filter (· ∈ s.recoveryPending)) recover
    saveAndReconcile config
  | .resume => do
    Act.modify fun s => { s with paused := false }
    saveAndReconcile config

/-- The seat check of `Broker.action`. -/
def checkSeat (request : ControlRequest) (peer : Peer) : BrokerAct Unit :=
  Act.when (request.needsSeat ∧ peer ≠ .root) (do
    let active ← seatActive
    Act.when (active = false) (Act.raise (tuningError "an active local seat0 session is required")))

/-- The policy query of `Broker.action`. -/
def askPolicy (request : ControlRequest) : BrokerAct Unit :=
  match request.asksPolicy with
  | none => pure ()
  | some strict => attempt (policy .status) fun exc =>
    if strict then Act.raise exc
    else Act.modify fun s => { s with policyError := clip exc.text }

/-- `Broker.action`. -/
def action (config : Config) (request : ControlRequest) (peer : Peer) : BrokerAct Unit := do
  if request.rootOnly ∧ peer ≠ .root then
    Act.raise (tuningError "sleep coordination is root-only")
  else do
    checkSeat request peer
    askPolicy request
    let s ← Act.get
    if request.requiresOwner config ∧ peer ≠ .root ∧ request.confirmed = false ∧
        (request.enablesBoot ∨ s.claimed = false) then
      Act.raise (tuningError "policy handover needs confirmation; use the launcher confirmation or --confirm-policy-owner")
    else perform config request

end Broker

end Preseed.HardwareTuning
