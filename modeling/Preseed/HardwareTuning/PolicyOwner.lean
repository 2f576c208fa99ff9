import Preseed.Effects.Safety
import Preseed.HardwareTuning.Common

/-!
# The policy owner

`policy_owner.py` hands CPU policy over between `power-profiles-daemon` (PPD) and
the tuning service. It only asks PID 1 to change unit files and to start or stop
the two units, keeps a durable record of a claim, and holds the hardware locks
while it does so. Each bus call may fail, with or without its effect, and the
helper may be killed between any two of them.
-/

namespace Preseed.HardwareTuning.PolicyOwner

open Effects

/-- `PPD` and `AUTOSTART`. -/
inductive ManagedUnit
  | ppd | autostart
  deriving DecidableEq

/-- `LoadState`, or `not-managed`. -/
inductive LoadState
  | loaded | masked | notFound | notManaged
  deriving DecidableEq

/-- `ActiveState`, or `not-managed`. `changing` stands for the other states of a unit. -/
inductive ActiveState
  | active | inactive | failed | changing | notManaged
  deriving DecidableEq

/-- `GetUnitFileState`. `other` stands for the states of units that are not enabled by symbolic
links of their own. -/
inductive FileState
  | enabled | disabled | masked | maskedRuntime | other | notFound | notManaged
  deriving DecidableEq

/-- What `Systemd.state` returns. -/
structure UnitState where
  /-- `load`. -/
  load : LoadState
  /-- `active`. -/
  active : ActiveState
  /-- `file`. -/
  file : FileState
  deriving DecidableEq

/-- `INACTIVE`. -/
def ActiveState.isInactive (state : ActiveState) : Bool := state ∈ [.inactive, .failed]

/-- `MASKED`. -/
def FileState.isMasked (file : FileState) : Bool := file ∈ [.masked, .maskedRuntime]

/-- The operations on unit files. -/
inductive FileMember
  | enable | disable | mask | unmask
  deriving DecidableEq

/-- What the helper asks of its environment. -/
inductive Step
  | lockHandover
  | readRecord
  | powerManagers
  | lock (vendor : Vendor)
  | readJournal (vendor : Vendor)
  | unlock
  | state (unit : ManagedUnit)
  | files (member : FileMember) (unit : ManagedUnit) (runtime : Bool)
  | reload
  | job (start : Bool) (unit : ManagedUnit)
  | stopping
  | writeRecord (claimed : Bool)
  deriving DecidableEq

/-- What a successful step returns: the claim of the record, whether another manager is active,
whether a journal has no entries, the state of a unit, whether the system is stopping. -/
def Step.Reply : Step → Type
  | .readRecord | .powerManagers | .readJournal _ | .stopping => Bool
  | .state _ => UnitState
  | _ => Unit

/-- The interface of the helper: every step may raise. -/
abbrev System : Interface := ⟨Step, fun step => Except Failure step.Reply⟩

/-- `self.claimed`. -/
structure Memory where
  /-- What the helper last read from or wrote to the record. -/
  claimed : Bool
  deriving DecidableEq

/-- A program of the helper. -/
abbrev OwnerAct := Act System Memory Failure

/-- Take a step and raise what it raises. -/
def request (step : Step) : OwnerAct step.Reply := do
  let answer ← Act.perform step
  Act.lift answer

/-- A step that answers a question. -/
def ask (step : Step) (h : step.Reply = Bool := by rfl) : OwnerAct Bool := do
  let answer ← request step
  pure (cast h answer)

/-- A step that returns nothing. -/
def order (step : Step) (h : step.Reply = Unit := by rfl) : OwnerAct Unit := do
  let answer ← request step
  pure (cast h answer)

/-- The constructor's fixed arguments. -/
structure Config where
  /-- `self.vendors`, sorted. -/
  vendors : List Vendor
  /-- `self.custom_api`. -/
  customApi : Bool
  deriving DecidableEq

/-- PPD is handed over at all. -/
def Config.managed (config : Config) : Bool := .intel ∈ config.vendors && !config.customApi

/-! ### Single operations -/

/-- `Systemd.state`. -/
def unitState (unit : ManagedUnit) : OwnerAct UnitState := request (.state unit)

/-- `Systemd.files`: the change, and a reload of PID 1. -/
def files (member : FileMember) (unit : ManagedUnit) (runtime : Bool) : OwnerAct Unit := do
  order (.files member unit runtime)
  order .reload

/-- `Systemd.job`. -/
def job (start : Bool) (unit : ManagedUnit) : OwnerAct Unit := order (.job start unit)

/-- `claim`. -/
def claim (value : Bool) : OwnerAct Unit := do
  order (.writeRecord value)
  Act.modify fun memory => { memory with claimed := value }

/-- Lock a vendor's hardware and check its journal. -/
def checkIdle (vendor : Vendor) : OwnerAct Unit := do
  order (.lock vendor)
  let empty ← ask (.readJournal vendor)
  Act.when (empty = false) (Act.raise (tuningError
    "hardware recovery must complete before policy handover"))

/-- `with self.hardware_idle()`: the locks are held until the body ends. -/
def hardwareIdle (config : Config) (body : OwnerAct Unit) : OwnerAct Unit :=
  Act.ensuring (do
    Act.forEach config.vendors checkIdle
    body) (order .unlock)

/-- `ppd`. -/
def ppd (config : Config) : OwnerAct UnitState :=
  if config.managed then unitState .ppd
  else pure ⟨.notManaged, .notManaged, .notManaged⟩

/-- `status`, whose result is only printed. -/
def status (config : Config) : OwnerAct Unit := do
  let _ ← ppd config
  let _ ← unitState .autostart
  pure ()

/-- `check_other_owners`. -/
def checkOtherOwners (config : Config) : OwnerAct Unit :=
  if .intel ∈ config.vendors then do
    let conflict ← ask .powerManagers
    Act.when (conflict = true) (Act.raise (tuningError
      "another CPU policy owner requires administrator attention"))
  else pure ()

/-- `unmask_ppd`. -/
def unmaskPpd : OwnerAct Unit := do
  files .unmask .ppd true
  files .unmask .ppd false

/-! ### Taking and returning the policy -/

/-- Mask PPD: for good, without its boot links, or until the next boot. -/
def maskPpd (boot : Bool) (found : UnitState) : OwnerAct Unit :=
  if boot then do
    unmaskPpd
    files .disable .ppd false
    files .mask .ppd false
  else Act.when (found.file.isMasked = false) (files .mask .ppd true)

/-- Take PPD out of service. -/
def excludePpd (config : Config) (boot : Bool) (found : UnitState) : OwnerAct Unit := do
  maskPpd boot found
  job false .ppd
  let current ← ppd config
  let required : Bool := if boot then current.file = .masked else current.file.isMasked
  Act.when (required = false ∨ current.active.isInactive = false) (Act.raise (tuningError
    "PPD exclusion could not be verified; custom tuning remains stopped"))

/-- PPD is there to be handed over. -/
def UnitState.present (state : UnitState) : Bool := state.load ∉ [.notFound, .notManaged]

/-- `prepare`. -/
def prepare (config : Config) (boot : Bool) : OwnerAct Unit := do
  checkOtherOwners config
  hardwareIdle config do
    let found ← ppd config
    let auto ← unitState .autostart
    Act.when (auto.load ≠ .loaded ∨ auto.file ∉ [.enabled, .disabled]) (Act.raise (tuningError
      "autostart unit is missing, masked or not a managed installable unit"))
    claim true
    Act.when (boot ∧ auto.file ≠ .enabled) (files .enable .autostart false)
    Act.when (found.present = true) (excludePpd config boot found)
    status config

/-- `activate`. -/
def activate (config : Config) : OwnerAct Unit := do
  let auto ← unitState .autostart
  Act.when (auto.file = .enabled ∧ auto.active ≠ .active) (job true .autostart)
  status config

/-- Enable PPD unless it is enabled. -/
def enablePpd (config : Config) : OwnerAct Unit := do
  let current ← ppd config
  Act.when (current.file ≠ .enabled) (files .enable .ppd false)

/-- Give PPD back. -/
def restorePpd (config : Config) (disable : Bool) (found : UnitState) : OwnerAct Unit := do
  checkOtherOwners config
  Act.when (found.file.isMasked = true) unmaskPpd
  Act.when (disable = true) (enablePpd config)
  let stopped ← ppd config
  Act.when (stopped.active ≠ .active) (job true .ppd)
  let current ← ppd config
  Act.when (current.active ≠ .active ∨ current.file.isMasked = true ∨
      (disable ∧ current.file ≠ .enabled))
    (Act.raise (tuningError "PPD restoration could not be verified"))

/-- `release`, past the check of a recovery. -/
def releaseIdle (config : Config) (disable : Bool) : OwnerAct Unit :=
  hardwareIdle config do
    let found ← ppd config
    Act.when (found.present = true) (restorePpd config disable found)
    let auto ← unitState .autostart
    Act.when (disable ∧ auto.file = .enabled) (files .disable .autostart false)
    Act.when (auto.active.isInactive = false) (job false .autostart)
    claim false
    status config

/-- `release`. -/
def release (config : Config) (disable recovery : Bool) : OwnerAct Unit := do
  if recovery then do
    let memory ← Act.get
    if memory.claimed then do
      let stopping ← ask .stopping
      if stopping then status config else releaseIdle config disable
    else status config
  else releaseIdle config disable

/-- `ACTIONS`. -/
inductive Command
  | status | prepareRuntime | prepareBoot | activate | stop | disable | recover
  deriving DecidableEq

/-- `execute`. -/
def execute (config : Config) : Command → OwnerAct Unit
  | .status => status config
  | .prepareRuntime => prepare config false
  | .prepareBoot => prepare config true
  | .activate => activate config
  | .stop => release config false false
  | .disable => release config true false
  | .recover => release config false true

/-- `main`: lock the handover, read the record and execute one command. -/
def main (config : Config) (command : Command) : OwnerAct Unit := do
  order .lockHandover
  let claimed ← ask .readRecord
  Act.modify fun memory => { memory with claimed := claimed }
  execute config command

/-! ### Units, locks and the record -/

/-- A unit as PID 1 has it on disk, and its activity. -/
structure UnitFile where
  /-- There is a unit file. -/
  found : Bool
  /-- It is enabled and disabled by symbolic links of its own. -/
  installable : Bool
  /-- It is enabled. -/
  enabled : Bool
  /-- It is masked under `/etc`. -/
  persistentMask : Bool
  /-- It is masked under `/run`. -/
  runtimeMask : Bool
  /-- What it does. -/
  active : ActiveState
  deriving DecidableEq

/-- It is masked in some layer. -/
def UnitFile.masked (unit : UnitFile) : Bool := unit.persistentMask || unit.runtimeMask

/-- `GetUnitFileState`: a persistent mask hides a runtime one. -/
def UnitFile.fileState (unit : UnitFile) : FileState :=
  if unit.found = false then .notFound
  else if unit.persistentMask then .masked
  else if unit.runtimeMask then .maskedRuntime
  else if unit.installable = false then .other
  else if unit.enabled then .enabled
  else .disabled

/-- What `Systemd.state` finds. -/
def UnitFile.state (unit : UnitFile) : UnitState :=
  if unit.found = false then ⟨.notFound, .inactive, .notFound⟩
  else ⟨if unit.masked then .masked else .loaded, unit.active, unit.fileState⟩

/-- The documented effect of an operation on unit files. A masked unit is neither enabled nor
disabled, since its installation section cannot be read. -/
def FileMember.apply (runtime : Bool) (unit : UnitFile) : FileMember → UnitFile
  | .enable =>
    if unit.masked || !unit.installable then unit else { unit with enabled := true }
  | .disable =>
    if unit.masked || !unit.installable then unit else { unit with enabled := false }
  | .mask =>
    if runtime then { unit with runtimeMask := true } else { unit with persistentMask := true }
  | .unmask =>
    if runtime then { unit with runtimeMask := false } else { unit with persistentMask := false }

/-- The state of the system that the helper works on. -/
structure World where
  /-- `power-profiles-daemon.service`. -/
  ppd : UnitFile
  /-- `hardware-tuning-autostart.service`. -/
  autostart : UnitFile
  /-- The durable record says claimed. -/
  record : Bool
  /-- A vendor's journal is absent or has no entries. -/
  idle : Vendor → Bool
  /-- A vendor's lock is held by the helper. -/
  held : Vendor → Bool
  /-- The helper has masked or stopped PPD, and PPD has not been seen running unmasked since. -/
  excluded : Bool

/-- One of the two units. -/
def World.unit (w : World) : ManagedUnit → UnitFile
  | .ppd => w.ppd
  | .autostart => w.autostart

/-- Change one of the two units. -/
def World.setUnit (w : World) (file : UnitFile) : ManagedUnit → World
  | .ppd => { w with ppd := file }
  | .autostart => { w with autostart := file }

/-- PPD runs and is not masked. -/
def World.ppdBack (w : World) : Bool := w.ppd.active = .active && !w.ppd.masked

/-- What changes without the helper: the activity of the units, and the journals of vendors
whose lock it does not hold. -/
structure Drifts (w w' : World) : Prop where
  /-- PPD's unit file. -/
  ppd : w'.ppd = { w.ppd with active := w'.ppd.active }
  /-- The tuning service's unit file. -/
  autostart : w'.autostart = { w.autostart with active := w'.autostart.active }
  /-- The record. -/
  record : w'.record = w.record
  /-- The locks. -/
  held : w'.held = w.held
  /-- The journals under a lock. -/
  idle : ∀ vendor, w.held vendor = true → w'.idle vendor = w.idle vendor
  /-- PPD is seen back in service. -/
  excluded : w'.excluded = (w.excluded && !w'.ppdBack)

/-- The effect of a step on the helper's world. -/
def Step.effect (w : World) : Step → World
  | .lock vendor => { w with held := fun other => other = vendor || w.held other }
  | .unlock => { w with held := fun _ => false }
  | .files member unit runtime =>
    { w.setUnit (member.apply runtime (w.unit unit)) unit with
      excluded := w.excluded || (member = .mask && unit = .ppd) }
  | .job start unit => { w with excluded := w.excluded || (!start && unit = .ppd) }
  | .writeRecord claimed => { w with record := claimed }
  | _ => w

/-- A successful reply tells the truth. -/
def Step.Truthful (w : World) : (step : Step) → step.Reply → Prop
  | .readRecord, claimed => claimed = w.record
  | .readJournal vendor, empty => empty = w.idle vendor
  | .state unit, reply => reply = (w.unit unit).state
  | .job start unit, _ => if start then (w.unit unit).active = .active
      else (w.unit unit).active.isInactive = true
  | _, _ => True

/-- The environment: a step has its effect, or it raises and may have had it, and then the
system drifts. Only the end of the locks cannot fail. -/
def Answers : Environment System Memory World := fun w _ step r w' =>
  match r with
  | .ok reply => Drifts (step.effect w) w' ∧ step.Truthful w' reply
  | .error _ => step ≠ .unlock ∧ (Drifts (step.effect w) w' ∨ Drifts w w')

end Preseed.HardwareTuning.PolicyOwner
