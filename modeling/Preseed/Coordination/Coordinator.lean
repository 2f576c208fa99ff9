import Mathlib.Data.Nat.Notation
import Mathlib.Logic.Function.Basic

/-!
# The Mullvad and Tailscale coordinator

The processes of `mullvad-tailscale-coordinator` and the Tailscale unit. A process
takes one step for each locked section without a systemctl command and for each
systemctl command; `enter_mullvad` holds the lock from one command to the next.
Every command and every section may fail.
-/

namespace Preseed.Coordination

/-- The Tailscale unit. It is activating while `ExecCondition` runs, by the process with
the given number, and while it starts. -/
inductive UnitState
  | inactive | failed
  | condition (process : ℕ)
  | starting | active | reloading | deactivating
  deriving DecidableEq

namespace UnitState

/-- `failed` and `inactive`, as `ActiveState` reports them. -/
def down : UnitState → Bool
  | inactive | failed => true
  | _ => false

/-- `active` and `reloading`, as `ActiveState` reports them. -/
def up : UnitState → Bool
  | active | reloading => true
  | _ => false

/-- How the unit moves without a command; a start waits for its condition. -/
def moves : UnitState → UnitState → Bool
  | inactive, failed | failed, inactive => true
  | condition _, inactive | condition _, failed => true
  | starting, active | active, reloading | reloading, active => true
  | starting, deactivating | active, deactivating | reloading, deactivating => true
  | starting, next | active, next | reloading, next | deactivating, next => next.down
  | _, _ => false

end UnitState

/-- How a process ends. -/
inductive Outcome
  /-- `enter_mullvad` returned. -/
  | entered
  /-- `enter_mullvad` raised after its failure path removed the active marker, or not. -/
  | withdrawn | notWithdrawn
  /-- `leave_mullvad` returned or raised. -/
  | left | notLeft
  /-- `tailscale_start_allowed` allowed the start, or deferred it, or raised. -/
  | allowed | deferred | raised
  | killed
  deriving DecidableEq

/-- What a process does next. -/
inductive Pc
  /-- No process has this number. -/
  | unused
  /-- `enter_mullvad`. -/
  | enter
  /-- The active marker is written; `_tailscale_available` is next. -/
  | probing
  /-- `_tailscale_state` is next. -/
  | inspecting
  /-- The restore marker is written; the stop command is next. -/
  | stopping
  /-- The check after the stop command. -/
  | verifying
  /-- The failure path of `enter_mullvad`, with `restore_after_failure`. -/
  | failing (restoreAfterFailure : Bool)
  /-- `leave_mullvad`. -/
  | leave
  /-- `_restore_tailscale_if_recorded`, called by `leave_mullvad` or by a failure path. -/
  | recorded (leaving : Bool)
  | checking (leaving : Bool)
  | starting (leaving : Bool)
  | confirming (leaving : Bool)
  /-- The last section of a restoration. -/
  | finishing (leaving : Bool)
  /-- `tailscale_start_allowed`. -/
  | condition
  | finished (outcome : Outcome)
  deriving DecidableEq

/-- The process holds the lock between two steps. -/
def Pc.holdsLock : Pc → Bool
  | probing | inspecting | stopping | verifying => true
  | _ => false

/-- A restoration that is over. -/
def restored (leaving : Bool) : Pc := .finished (if leaving then .left else .withdrawn)

/-- A restoration that raised. -/
def notRestored (leaving : Bool) : Pc := .finished (if leaving then .notLeft else .withdrawn)

structure System where
  pc : ℕ → Pc
  lock : Option ℕ
  /-- `MULLVAD_ACTIVE_MARKER`. -/
  mullvadActive : Bool
  /-- `TAILSCALE_RESTORE_MARKER`. -/
  restoreTailscale : Bool
  /-- The unit is not `not-found`. -/
  available : Bool
  unit : UnitState
  /-- How often the active marker was removed. -/
  removals : ℕ
  /-- An exclusion stopped Tailscale or deferred its start, and it was not started since. -/
  owed : Bool
  /-- An exclusion that did not find Tailscale running removed the record of the
  restoration that is owed. -/
  dropped : Bool

def System.at (s : System) (p : ℕ) (pc : Pc) : System :=
  { s with pc := Function.update s.pc p pc }

/-- An exception in the locked section of `enter_mullvad` releases the lock. -/
def System.fail (s : System) (p : ℕ) (restoreAfterFailure : Bool) : System :=
  { s.at p (.failing restoreAfterFailure) with lock := none }

/-- `_remove_marker(MULLVAD_ACTIVE_MARKER)`. -/
def System.removeActive (s : System) : System :=
  { s with mullvadActive := false, removals := s.removals + 1 }

/-- `_remove_marker(TAILSCALE_RESTORE_MARKER)` by an exclusion. -/
def System.dropRestore (s : System) : System :=
  { s with restoreTailscale := false, dropped := s.dropped || (s.owed && s.restoreTailscale) }

/-- How a step of a process goes. -/
inductive Answer
  | ok
  /-- The command or section fails without an effect. -/
  | fails
  /-- The first removal of the failure path succeeds and the second fails. -/
  | failsLate
  /-- The stop command fails, and the unit is left in a state. -/
  | stops (unit : UnitState)
  deriving DecidableEq

/-- The unit after a stop command. -/
def System.stopped (s : System) (unit : UnitState) : System :=
  { s with unit := unit, owed := s.owed || (!s.unit.down && s.available) }

/-- One step of a process, if it is not blocked by the lock. -/
def System.run (s : System) (p : ℕ) (answer : Answer) : Option System :=
  match s.pc p with
  | .unused | .finished _ => none
  | .enter =>
      match answer with
      | .ok => if s.lock = none then
            some { s.at p .probing with lock := some p, mullvadActive := true }
          else none
      | _ => some (s.at p (.failing false))
  | .probing =>
      match answer with
      | .ok =>
          if s.available then some (s.at p .inspecting)
          else some { s.at p (.finished .entered) with lock := none, restoreTailscale := false }
      | _ => some (s.fail p false)
  | .inspecting =>
      match answer with
      | .ok =>
          if s.unit.down then
            some { (s.at p (.finished .entered)).dropRestore with lock := none }
          else some { s.at p .stopping with restoreTailscale := true }
      -- an unknown state, or a marker that cannot be removed, before it is known that
      -- Tailscale is running
      | .fails => some (s.fail p false)
      -- the restore marker cannot be written
      | _ => if s.unit.down then some (s.fail p false) else some (s.fail p true)
  | .stopping =>
      match answer with
      | .ok => some ((s.stopped .inactive).at p .verifying)
      | .stops unit =>
          if unit.down then some ((s.stopped unit).at p .verifying)
          else if unit = .deactivating ∧ s.unit.down = false then
            some ((s.stopped unit).fail p true)
          else none
      | .fails => some (s.fail p true)
      | .failsLate => some ((s.stopped .inactive).fail p true)
  | .verifying =>
      match answer with
      | .ok =>
          if s.unit.down then some { s.at p (.finished .entered) with lock := none }
          else some (s.fail p true)
      | _ => some (s.fail p true)
  | .failing restoreAfterFailure =>
      match answer with
      | .fails => some (s.at p (.finished .notWithdrawn))
      | .ok =>
          if s.lock = none then
            if restoreAfterFailure then some (s.removeActive.at p (.recorded false))
            else some (s.removeActive.dropRestore.at p (.finished .withdrawn))
          else none
      | .failsLate =>
          if s.lock = none ∧ restoreAfterFailure = false then
            some (s.removeActive.at p (.finished .withdrawn))
          else none
      | .stops _ => none
  | .leave =>
      match answer with
      | .ok => if s.lock = none then some (s.removeActive.at p (.recorded true)) else none
      | _ => some (s.at p (.finished .notLeft))
  | .recorded leaving =>
      match answer with
      | .ok =>
          if s.lock = none then
            some (s.at p (if s.restoreTailscale then .checking leaving else restored leaving))
          else none
      | _ => some (s.at p (notRestored leaving))
  | .checking leaving =>
      match answer with
      | .ok => some (s.at p (if s.available then .starting leaving else notRestored leaving))
      | _ => some (s.at p (notRestored leaving))
  | .starting leaving =>
      -- the start itself is a matter of the unit
      match answer with
      | .ok => some (s.at p (.confirming leaving))
      | _ => some (s.at p (notRestored leaving))
  | .confirming leaving =>
      match answer with
      | .ok => some (s.at p (if s.unit.up then .finishing leaving else notRestored leaving))
      | _ => some (s.at p (notRestored leaving))
  | .finishing leaving =>
      match answer with
      | .ok =>
          if s.lock = none then
            if s.mullvadActive then some (s.at p (restored leaving))
            else some { s.at p (restored leaving) with restoreTailscale := false }
          else none
      | _ => some (s.at p (notRestored leaving))
  | .condition =>
      match answer with
      | .ok =>
          if s.lock = none then
            if s.mullvadActive then
              some { s.at p (.finished .deferred) with
                restoreTailscale := true
                owed := s.owed || decide (s.unit = .condition p) }
            else some (s.at p (.finished .allowed))
          else none
      | _ => some (s.at p (.finished .raised))

/-- The commands of the coordinator. -/
inductive Command
  | mullvadStart | mullvadStop | tailscaleStart
  deriving DecidableEq

def Command.entry : Command → Pc
  | mullvadStart => .enter
  | mullvadStop => .leave
  | tailscaleStart => .condition

inductive Event
  /-- A process takes a step. -/
  | run (p : ℕ) (answer : Answer)
  /-- A process is started, other than by the unit. -/
  | spawn (p : ℕ) (command : Command)
  /-- systemd starts the unit and runs its condition. -/
  | beginStart (p : ℕ)
  /-- The condition of the unit has ended. -/
  | conditionEnds
  /-- The unit moves otherwise. -/
  | unit (next : UnitState)
  /-- The unit file of a stopped unit appears or disappears. -/
  | load (available : Bool)
  /-- A process is killed. -/
  | kill (p : ℕ)
  deriving DecidableEq

/-- One event, if it can happen. -/
def System.step (s : System) : Event → Option System
  | .run p answer => s.run p answer
  | .spawn p command => if s.pc p = .unused then some (s.at p command.entry) else none
  | .beginStart p =>
      if s.pc p = .unused ∧ s.available ∧ s.unit.down then
        some { s.at p .condition with unit := .condition p }
      else none
  | .conditionEnds =>
      match s.unit with
      | .condition p =>
          match s.pc p with
          | .finished .allowed => some { s with unit := .starting }
          | .finished _ => some { s with unit := .inactive }
          | _ => none
      | _ => none
  | .unit next =>
      if s.unit.moves next then
        some { s with
          unit := next
          owed := s.owed && decide (next ≠ .active)
          dropped := s.dropped && decide (next ≠ .active) }
      else none
  | .load available =>
      if s.unit.down then
        some { s with
          available := available
          owed := s.owed && available
          dropped := s.dropped && available }
      else none
  | .kill p =>
      match s.pc p with
      | .unused | .finished _ => none
      | _ => some { s.at p (.finished .killed) with
          lock := if s.lock = some p then none else s.lock }

/-- No process runs and nothing is recorded. -/
def System.initial (available : Bool) (unit : UnitState) : System where
  pc := fun _ => .unused
  lock := none
  mullvadActive := false
  restoreTailscale := false
  available := available
  unit := unit
  removals := 0
  owed := false
  dropped := false

end Preseed.Coordination
