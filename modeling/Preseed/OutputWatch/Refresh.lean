import Preseed.Effects.Program

/-!
# Output refreshes

`run_refresh_action` of the output watcher: the idle snapshot, the restore request and the pause of
the output authority. A topology is any type; what `wlr-randr`, `wlopm`, systemctl and the files
answer is left to the environment.
-/

namespace Preseed.OutputWatch

open Effects

/-- `die`. -/
inductive Fault
  | died
  deriving DecidableEq

/-- The requested mode; `refresh` is the empty one. -/
inductive Mode
  | refresh | idleTopologyActive | restoreIdleTopology | dpmsOff | dpmsOn
  deriving DecidableEq

inductive Command
  | systemctl | wlrRandr | wlopm
  deriving DecidableEq

/-- What has a yes or a no, or has no answer that counts. -/
inductive Ask (τ : Type)
  | sessionIsActive
  /-- `idle_topology_active`: the snapshot is a file that is not empty. -/
  | idleTopologyActive
  /-- `idle_topology_restore_requested`. -/
  | restoreRequested
  | findCommand (command : Command)
  | prepareDock
  /-- The marker `output-authority.paused` is written. -/
  | publishPause
  | pauseExists
  /-- The marker reads `v1`. -/
  | pauseIsOwn
  | removePause
  | stopKanshi
  | startKanshi
  /-- The outputs of a topology can be restored: one is enabled and all are complete. -/
  | isComplete (topology : τ)
  | publishSnapshot (topology : τ)
  | publishRequest
  | removeSnapshot
  | removeRequest
  /-- A `wlopm` transaction. -/
  | power (on : Bool)
  /-- A `wlr-randr` transaction. -/
  | geometry
  | waitForOutputs
  /-- A saved output is there, and its geometry is the saved one. -/
  | outputsExist
  | geometryMatches
  | waitForCommit
  | saveTopology
  /-- `selection_plan` has a plan; and the live configuration is current. -/
  | hasPlan
  | planIsCurrent
  | topologyChanged
  | refreshChrome
  | refreshDock
  /-- A call that never returns. -/
  | hang
  deriving DecidableEq

inductive Step (τ : Type)
  | ask (question : Ask τ)
  | captureCommand
  | loadIdleTopology
  deriving DecidableEq

/-- What a step returns that does not die. -/
def Step.Reply {τ : Type} : Step τ → Type
  | ask _ => Bool
  | captureCommand | loadIdleTopology => Option τ

abbrev Desktop (τ : Type) : Interface := ⟨Step τ, fun step => Except Fault step.Reply⟩

abbrev RefreshAct (τ : Type) := Act (Desktop τ) Unit Fault

variable {τ : Type}

def step (op : Step τ) : RefreshAct τ op.Reply := do
  let answer ← Act.perform op
  Act.lift answer

def ask (question : Ask τ) : RefreshAct τ Bool := step (.ask question)

/-- A call whose answer does not count. -/
def call (question : Ask τ) : RefreshAct τ Unit := do
  let _ ← ask question
  pure ()

def captureCommand : RefreshAct τ (Option τ) := step .captureCommand

def loadIdleTopology : RefreshAct τ (Option τ) := step .loadIdleTopology

def die {α : Type} : RefreshAct τ α := Act.raise .died

/-- `... or die`. -/
def orDie (op : RefreshAct τ Bool) : RefreshAct τ Unit := do
  let ok ← op
  if ok then pure () else die

section Authority

-- `LABWC_ENABLE_KANSHI`; `none` for a value that is no policy
variable (policy : Option Bool)

/-- `kanshi_is_configured`. -/
def kanshiIsConfigured : RefreshAct τ Bool :=
  match policy with
  | some configured => pure configured
  | none => die

/-- `pause_output_authority`. -/
def pauseOutputAuthority : RefreshAct τ Unit := do
  let configured ← kanshiIsConfigured policy
  if configured then do
    orDie (ask (.findCommand .systemctl))
    orDie (ask .publishPause)
    orDie (ask .stopKanshi)
  else pure ()

/-- `$systemctl && systemctl start`. -/
def startIfFound : RefreshAct τ Bool := do
  let found ← ask (.findCommand .systemctl)
  if found then ask .startKanshi else pure false

/-- Kanshi is started again; otherwise the marker is written again. -/
def restartKanshi : RefreshAct τ Unit := do
  let started ← startIfFound
  if started then pure ()
  else do
    call .publishPause
    die

/-- The marker is removed. -/
def removeMarker : RefreshAct τ Unit := do
  orDie (ask .pauseIsOwn)
  orDie (ask .removePause)
  let configured ← kanshiIsConfigured policy
  if configured then restartKanshi else pure ()

/-- `resume_output_authority`. -/
def resumeOutputAuthority : RefreshAct τ Unit := do
  let idle ← ask .idleTopologyActive
  if idle then pure ()
  else do
    let active ← ask .sessionIsActive
    if active = false then pure ()
    else do
      let paused ← ask .pauseExists
      if paused then removeMarker policy else pure ()

end Authority

/-- `clear_idle_topology`. -/
def clearIdleTopology : RefreshAct τ Unit := do
  call .removeSnapshot
  call .removeRequest

/-- `request_idle_topology_restore`. -/
def requestIdleTopologyRestore : RefreshAct τ Unit := do
  let idle ← ask .idleTopologyActive
  if idle then orDie (ask .publishRequest) else pure ()

/-- `capture_idle_topology`. -/
def captureIdleTopology : RefreshAct τ Bool := do
  let idle ← ask .idleTopologyActive
  if idle then pure true
  else do
    let state ← captureCommand
    match state with
    | none => pure false
    | some topology => do
      let complete ← ask (.isComplete topology)
      if complete then ask (.publishSnapshot topology) else pure false

/-- `apply_output_transaction`. -/
def applyOutputTransaction (transaction : Ask τ) : RefreshAct τ Bool := do
  let active ← ask .sessionIsActive
  if active = false then pure false else ask transaction

/-- `run_optional('wlopm', ...)`. -/
def runWlopm (on : Bool) : RefreshAct τ Bool := do
  let found ← ask (.findCommand .wlopm)
  if found then applyOutputTransaction (.power on) else pure false

/-- `apply_idle_topology`. -/
def applyIdleTopology : RefreshAct τ Bool := do
  let exist ← ask .outputsExist
  if exist = false then pure false
  else do
    let same ← ask .geometryMatches
    if same then pure true else applyOutputTransaction .geometry

/-- The rest of `restore_idle_topology`, with the snapshot loaded. -/
def restoreOutputs (reconcile : RefreshAct τ Bool) : RefreshAct τ Bool := do
  let present ← ask .waitForOutputs
  if present = false then do
    let current ← captureCommand
    match current with
    | none => pure false
    | some _ => do
      clearIdleTopology
      let _ ← reconcile
      pure true
  else do
    let applied ← applyIdleTopology
    if applied = false then pure false
    else do
      let committed ← ask .waitForCommit
      if committed = false then pure false
      else do
        call .saveTopology
        clearIdleTopology
        pure true

/-- `restore_idle_topology`, with the refresh that an absent output calls for. -/
def restoreIdleTopology (reconcile : RefreshAct τ Bool) : RefreshAct τ Bool := do
  let requested ← ask .restoreRequested
  if requested = false then pure false
  else do
    let saved ← loadIdleTopology
    match saved with
    | none => do
      clearIdleTopology
      die
    | some _ => restoreOutputs reconcile

section Refresh

variable (policy : Option Bool)

/-- The mode `--restore-idle-topology`. -/
def restoreMode (reconcile : RefreshAct τ Bool) : RefreshAct τ Bool := do
  let requested ← ask .restoreRequested
  if requested = false then pure false
  else do
    pauseOutputAuthority policy
    let found ← ask (.findCommand .wlrRandr)
    if found = false then pure false
    else do
      let ready ← ask .prepareDock
      if ready = false then pure false else restoreIdleTopology reconcile

/-- The outputs could not be powered off. -/
def powerOffFailed : RefreshAct τ Bool := do
  let _ ← runWlopm true
  clearIdleTopology
  die

/-- The mode `--dpms-off`. -/
def dpmsOffMode : RefreshAct τ Bool := do
  let idle ← ask .idleTopologyActive
  if idle then pure false
  else do
    pauseOutputAuthority policy
    let ready ← ask .prepareDock
    if ready = false then pure false
    else do
      orDie (ask (.findCommand .wlrRandr))
      orDie captureIdleTopology
      let off ← runWlopm false
      if off then pure false else powerOffFailed

/-- `wlr-randr` is there, and so is a snapshot. -/
def idleIfFound : RefreshAct τ Bool := do
  let found ← ask (.findCommand .wlrRandr)
  if found then ask .idleTopologyActive else pure false

/-- The restoration that a wake requests. -/
def restoreIfIdle (reconcile : RefreshAct τ Bool) : RefreshAct τ Bool := do
  let idle ← idleIfFound
  if idle then do
    requestIdleTopologyRestore
    restoreIdleTopology reconcile
  else pure false

/-- The mode `--dpms-on`. -/
def dpmsOnMode (reconcile : RefreshAct τ Bool) : RefreshAct τ Bool := do
  pauseOutputAuthority policy
  orDie (runWlopm true)
  let restored ← restoreIfIdle reconcile
  if restored then pure true
  else do
    call .refreshChrome
    pure false

/-- A change of the outputs, once the dock is stopped. -/
def commitPlan : RefreshAct τ Bool := do
  let ready ← captureCommand
  let active ← ask .sessionIsActive
  if ready.isNone ∨ active = false then pure false
  else do
    let changed ← ask .topologyChanged
    if changed then pure false
    else do
      orDie (applyOutputTransaction .geometry)
      let active ← ask .sessionIsActive
      if active = false then pure false
      else do
        let _ ← captureCommand
        call .saveTopology
        ask .topologyChanged

/-- The rest of a reconciliation where Kanshi is not configured. -/
def applyPlan : RefreshAct τ Bool := do
  let active ← ask .sessionIsActive
  if active = false then pure false
  else do
    let plan ← ask .hasPlan
    if plan = false then pure false
    else do
      let current ← ask .planIsCurrent
      if current then do
        call .saveTopology
        ask .topologyChanged
      else do
        orDie (ask .prepareDock)
        commitPlan

/-- A reconciliation without a snapshot. -/
def reconcileMode : RefreshAct τ Bool := do
  let found ← ask (.findCommand .wlrRandr)
  if found = false then pure false
  else do
    let state ← captureCommand
    match state with
    | none => pure false
    | some _ => do
      let configured ← kanshiIsConfigured policy
      if configured then do
        call .saveTopology
        ask .topologyChanged
      else applyPlan

/-- `refresh_outputs`, with the nested calls in the two modes. -/
def refreshMode (restore reconcile : RefreshAct τ Bool) : Mode → RefreshAct τ Bool
  | .idleTopologyActive => ask .idleTopologyActive
  | .restoreIdleTopology => restoreMode policy reconcile
  | .dpmsOff => dpmsOffMode policy
  | .dpmsOn => dpmsOnMode policy reconcile
  | .refresh => do
    let idle ← ask .idleTopologyActive
    if idle then do
      let requested ← ask .restoreRequested
      if requested then restore else pure false
    else reconcileMode policy

/-- `refresh_outputs`; a call that nests deeper than `depth` does not return. -/
def refreshOutputs : ℕ → Mode → RefreshAct τ Bool
  | 0, _ => ask .hang
  | depth + 1, mode => do
    let active ← ask .sessionIsActive
    if active = false then pure false
    else do
      refreshMode policy (refreshOutputs depth .restoreIdleTopology)
        (refreshOutputs depth .refresh) mode

/-- The action under the refresh lock. -/
def refreshLocked (depth : ℕ) (mode : Mode) : RefreshAct τ Bool := do
  let result ← refreshOutputs policy depth mode
  if mode = .idleTopologyActive then pure result
  else do
    resumeOutputAuthority policy
    pure result

/-- After an error the dock and the authority come back. -/
def recoverFailed : RefreshAct τ Bool := do
  Act.handle (call .refreshDock) fun _ => pure ()
  Act.handle (resumeOutputAuthority policy) fun _ => pure ()
  die

/-- `run_refresh_action`. -/
def runRefreshAction (depth : ℕ) (mode : Mode) : RefreshAct τ Bool := do
  let active ← ask .sessionIsActive
  if active = false then pure (mode = .idleTopologyActive)
  else do
    let result ← Act.handle (refreshLocked policy depth mode) fun _ => recoverFailed policy
    if mode = .idleTopologyActive then pure (!result)
    else do
      call .refreshChrome
      pure (mode = .restoreIdleTopology && !result)

end Refresh

end Preseed.OutputWatch
