import Preseed.Compatibility.Instance

/-!
# The reported outcome

`_run_compatibility`: a run of the coordinator, its teardown, and the outcome that is reported.
-/

namespace Preseed.Compatibility

open Effects

/-- What happens at the coordinator until its run ends. -/
inductive Action
  | service (round : Round)
  /-- `_signal` -/
  | signal (number : ℕ)
  /-- `cleanup_failed` is set. -/
  | cleanupFailed

/-- What happens after that. -/
inductive Teardown
  | signal (number : ℕ)
  | cleanupFailed

def Instance.signalled (i : Instance) (number : ℕ) : Instance :=
  { i with stopSignal := i.stopSignal <|> some number }

def Teardown.run (i : Instance) : Teardown → Instance
  | signal number => i.signalled number
  | cleanupFailed => { i with cleanupFailed := true }

/-- How the supervisor of the sandbox ends. -/
inductive Ending
  /-- The sandbox returned its status, and the last records were drained. -/
  | returned (status : ℕ)
  /-- `RequiredComponentError` of a return code -/
  | required (returncode : ℤ)
  /-- `InterruptedError` -/
  | interrupted
  /-- `ProtocolError`, `OSError`, `ValueError`, `TimeoutExpired` or `SystemExit` -/
  | failed
  deriving DecidableEq

/-- The result and the signal of a `RequiredComponentError`. -/
def componentResult (returncode : ℤ) : ℕ × ℕ :=
  if returncode < 0 then (128 + returncode.natAbs, returncode.natAbs)
  else (if returncode = 0 then infrastructureResult else returncode.toNat, 0)

/-- The primary cause of a failure that no record names. -/
def startPrimary (running : Bool) : Primary :=
  if running then .infrastructureFailed else .startupFailed

/-- The outcome of a run that recorded none. -/
def startOutcome (running : Bool) : Outcome where
  primary := startPrimary running
  result := if running then infrastructureResult else startupResult
  signal := 0
  cleanup := true
  fits := by cases running <;> decide

/-- `Outcome("infrastructure-failed", INFRASTRUCTURE_RESULT)`. -/
def infrastructure : Outcome := startOutcome true

/-- The recorded outcome, if its result is not 0. -/
def Instance.failure? (i : Instance) : Option Outcome := i.outcome.filter (·.result ≠ 0)

/-- The outcome of a run, before the cleanup flag is merged. -/
def Instance.conclude (i : Instance) (shutdown : Bool) : Ending → Except Failure Outcome
  | .returned status =>
    match i.outcome with
    | some o => .ok (if status ≠ o.result ∧ o.result = 0 then infrastructure else o)
    | none => .ok (startOutcome i.running)
  | .required returncode =>
    match i.failure? with
    | some o => .ok o
    | none =>
      Outcome.make (some (startPrimary i.running)) (some (componentResult returncode).1)
        (some (componentResult returncode).2) (some true)
  | .interrupted =>
    match i.failure? with
    | some o => .ok o
    | none =>
      let signum := (i.stopSignal.filter (· ≠ 0)).getD 15
      Outcome.make (some (if shutdown then .shutdownStopped else .userStopped))
        (some (128 + signum)) (some signum) (some true)
  | .failed => .ok (i.failure?.getD (startOutcome i.running))

/-- The outcome that is reported, from the instance where the sandbox ended. -/
def Instance.report (i : Instance) (shutdown : Bool) (ending : Ending) (teardown : List Teardown) :
    Except Failure Outcome :=
  let i := teardown.foldl Teardown.run i
  match i.conclude shutdown ending with
  | .ok o => .ok (if i.cleanupFailed then o.cleanupFailed else o)
  | .error e => .error e

section Run

-- `activation_arguments`
variable (approve : List Json → Option (List String))

def Action.run : Action → Session Unit
  | service round => Compatibility.service approve round
  | signal number => update fun i => i.signalled number
  | cleanupFailed => update fun i => { i with cleanupFailed := true }

/-- The status of the compositor's supervisor, after it sent `o`. -/
def supervisorStatus (o : Outcome) : ℕ :=
  if o.cleanup then o.result else if o.result = 0 then cleanupResult else o.result

/-- The instance where a run ends, and how. A service call that raises ends the run; the sandbox
returns the status of the supervisor, and the last call before the report is one of `service`. -/
inductive Finishes (runId : String) (actions : List Action) : Instance → Ending → Prop
  | returned {i : Instance} {status : ℕ} {round : Round}
      (hrun : actions.forM (Action.run approve) (Instance.new runId) = .ok () i)
      (hlast : actions.getLast? = some (.service round))
      (hstatus : ∀ o, Event.compositor o ∈ i.log → status = supervisorStatus o) :
      Finishes runId actions i (.returned status)
  | component {i : Instance} {returncode : ℤ}
      (hrun : actions.forM (Action.run approve) (Instance.new runId) = .ok () i) :
      Finishes runId actions i (.required returncode)
  | failed {i : Instance}
      (hrun : actions.forM (Action.run approve) (Instance.new runId) = .ok () i) :
      Finishes runId actions i .failed
  | interrupted {i : Instance}
      (hrun : actions.forM (Action.run approve) (Instance.new runId) = .ok () i) :
      Finishes runId actions i .interrupted
  | stopped {i : Instance}
      (hrun : actions.forM (Action.run approve) (Instance.new runId) = .error .interrupted i) :
      Finishes runId actions i .interrupted
  | rejected {i : Instance}
      (hrun : actions.forM (Action.run approve) (Instance.new runId) = .error .protocol i) :
      Finishes runId actions i .failed

end Run

end Preseed.Compatibility
