import Preseed.Effects.Program

/-!
# Mutations of the desktop firewall

`_apply_rules` of the firewall action: the recovery snapshot, the candidates, the
publication of the state file and the fragment, the reload, its verification and the
rollback. Texts are lists of characters.
-/

namespace Preseed.DesktopFirewall

open Effects

/-- What a step raises. `OutcomeUnknown` is a `FirewallError`. -/
inductive Fault
  | firewallError | outcomeUnknown | osError
  deriving DecidableEq

/-- `except FirewallError`. -/
def Fault.isFirewall (e : Fault) : Bool := e ≠ .osError

/-- `except FirewallError` after `except OutcomeUnknown`. -/
def Fault.isDefinite (e : Fault) : Bool := e = .firewallError

/-- `except OSError`. -/
def Fault.isOs (e : Fault) : Bool := e = .osError

/-- The owned live tables: the comments of the managed rules in `local_input` and
`local_output`, and everything else that `_live_identity` compares. -/
structure Live where
  localInput : List String
  localOutput : List String
  rest : String
  deriving DecidableEq

/-- The contents of the state file and of the fragment. -/
structure Files where
  state : List Char
  fragment : List Char
  deriving DecidableEq

/-- A recovery directory. -/
structure Recovery where
  state : Option (List Char)
  fragment : Option (List Char)
  receipt : Bool
  live : Option Live
  deriving DecidableEq

def Recovery.empty : Recovery := ⟨none, none, false, none⟩

structure System.World where
  files : Files
  live : Live
  /-- A `.labwc-firewall-recovery.` directory. -/
  recovery : Option Recovery
  /-- A directory could not be made private and durable, or not be removed. -/
  uncleaned : Bool
  deriving DecidableEq

/-- What a mutation does to the system. -/
inductive Action
  /-- `validate_managed_file`, `validate_nft_conf`. -/
  | validateFiles
  | makeDirectory
  /-- Its `chmod`, and the synchronization of its parent. -/
  | protectDirectory
  | backupState
  | backupFragment
  | writeReceipt
  /-- The removal of a snapshot that could not be completed. -/
  | removeSnapshot
  | writeCandidates
  /-- The commands are required, and the state candidate is loaded. -/
  | loadCandidate
  /-- The rest of `_snapshot_live`. -/
  | saveLive
  | replaceState (content : List Char)
  | replaceFragment (content : List Char)
  /-- `_atomic_restore` of the state file, and of the fragment. -/
  | restoreState
  | restoreFragment
  /-- The end of `cleanup`, which raises nothing. -/
  | removeRecovery
  deriving DecidableEq

/-- The commands; the answer is whether the status is zero. -/
inductive Command
  /-- `nft -c` of the fragment candidate. -/
  | checkCandidate
  /-- `nft -c` of the entry point. -/
  | checkEntry
  | reload
  /-- `nft -f live.nft`. -/
  | restoreLive
  deriving DecidableEq

inductive Step
  | act (action : Action)
  | command (command : Command)
  /-- The scan for a recovery directory. -/
  | scanPending
  /-- `_live_identity`. -/
  | liveIdentity
  /-- The comments that `_verify_managed_rules` reads. -/
  | listManaged
  deriving DecidableEq

/-- What a successful step returns. -/
def Step.Reply : Step → Type
  | act _ => Unit
  | command _ => Bool
  | scanPending => Bool
  | liveIdentity => Live
  | listManaged => List String × List String

abbrev System : Interface := ⟨Step, fun step => Except Fault step.Reply⟩

/-- `rollback_failed`. -/
structure Locals where
  rollbackFailed : Bool
  deriving DecidableEq

abbrev MutationAct := Act System Locals Fault

/-- Take a step and raise what it raises. -/
def step (op : Step) : MutationAct op.Reply := do
  let answer ← Act.perform op
  Act.lift answer

def act (action : Action) : MutationAct Unit := step (.act action)

def command (command : Command) : MutationAct Bool := step (.command command)

def scanPending : MutationAct Bool := step .scanPending

def liveIdentity : MutationAct Live := step .liveIdentity

def listManaged : MutationAct (List String × List String) := step .listManaged

def setRollbackFailed (value : Bool) : MutationAct Unit := Act.modify fun _ => ⟨value⟩

/-! ## The transaction -/

/-- What a new rule list is published as. -/
structure Candidate where
  files : Files
  /-- The comments of its rules. -/
  localInput : List String
  localOutput : List String

/-- `PendingMutation.create`. -/
def create : MutationAct Unit := do
  act .validateFiles
  let pending ← scanPending
  Act.when (pending = true) (Act.raise .outcomeUnknown)
  act .makeDirectory
  act .protectDirectory
  Act.handle
    (do
      act .backupState
      act .backupFragment
      act .writeReceipt)
    fun failure => do
      Act.handleIf (act .removeSnapshot) Fault.isOs fun _ => pure ()
      Act.raise failure

/-- `PendingMutation.install`. -/
def install (candidate : Candidate) : MutationAct Unit := do
  setRollbackFailed true
  Act.handleIf
    (do
      act (.replaceState candidate.files.state)
      act (.replaceFragment candidate.files.fragment))
    Fault.isOs fun _ => Act.raise .firewallError

/-- One restoration of `rollback`: no error. -/
def restored (op : MutationAct Unit) : MutationAct Bool :=
  Act.handleIf (do op; pure true) Fault.isFirewall fun _ => pure false

/-- `PendingMutation.rollback`. -/
def rollback : MutationAct Unit := do
  setRollbackFailed true
  let state ← restored (act .restoreState)
  let fragment ← restored (act .restoreFragment)
  Act.when (state = false ∨ fragment = false) (Act.raise .firewallError)

/-- `_rollback_or_fail`. -/
def rollbackOrFail {α : Type} : MutationAct α := do
  Act.handleIf rollback Fault.isFirewall fun _ => Act.raise .outcomeUnknown
  setRollbackFailed false
  Act.raise .firewallError

/-- `_verify_managed_rules`. -/
def verifyManagedRules (candidate : Candidate) : MutationAct Unit := do
  let actual ← listManaged
  Act.when (actual ≠ (candidate.localInput, candidate.localOutput)) (Act.raise .firewallError)

/-- The reload and its verification: the new rules are in force. -/
def reloadAndVerify (candidate : Candidate) : MutationAct Bool := do
  let reloaded ← Act.handleIf (command .reload) Fault.isDefinite fun _ => pure false
  if reloaded then
    Act.handleIf (do verifyManagedRules candidate; pure true) Fault.isFirewall fun _ => pure false
  else pure false

/-- The restoration of the owned live tables. -/
def restoreLive (previous : Live) : MutationAct Unit := do
  let status ← Act.handleIf
    (do
      let status ← command .restoreLive
      Act.when (status = true) do
        let identity ← liveIdentity
        Act.when (identity ≠ previous) (Act.raise .firewallError)
      pure status)
    Fault.isFirewall fun _ => Act.raise .outcomeUnknown
  Act.when (status = false) (Act.raise .outcomeUnknown)

/-- The restoration after a failed reload. -/
def restoreAll (previous : Live) : MutationAct Unit := do
  Act.handleIf rollback Fault.isFirewall fun _ => Act.raise .outcomeUnknown
  restoreLive previous
  setRollbackFailed false
  Act.raise .firewallError

/-- The publication, from `install` on. -/
def publish (candidate : Candidate) (previous : Live) : MutationAct Unit := do
  Act.handleIf (install candidate) Fault.isFirewall fun _ => rollbackOrFail
  let syntaxOk ← Act.handleIf (command .checkEntry) Fault.isFirewall fun _ => rollbackOrFail
  Act.when (syntaxOk = false) rollbackOrFail
  setRollbackFailed true
  let applied ← reloadAndVerify candidate
  if applied then setRollbackFailed false else restoreAll previous

/-- `validate_and_apply`. -/
def validateAndApply (candidate : Candidate) : MutationAct Unit := do
  act .loadCandidate
  let valid ← command .checkCandidate
  Act.when (valid = false) (Act.raise .firewallError)
  let previous ← liveIdentity
  act .saveLive
  publish candidate previous

/-- `PendingMutation.cleanup`. -/
def cleanup : MutationAct Unit := do
  let s ← Act.get
  Act.when (s.rollbackFailed = false) (act .removeRecovery)

/-- `_apply_rules`. -/
def applyRules (candidate : Candidate) : MutationAct Unit := do
  create
  Act.ensuring (do act .writeCandidates; validateAndApply candidate) cleanup

/-- `_apply_rules` under `locked`, which raises a `FirewallError` for an `OSError`. -/
def mutate (candidate : Candidate) : MutationAct Unit :=
  Act.handleIf (applyRules candidate) Fault.isOs fun _ => Act.raise .firewallError

def Locals.initial : Locals := ⟨false⟩

end Preseed.DesktopFirewall
