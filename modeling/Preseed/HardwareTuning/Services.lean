import Preseed.Effects.Guarantee
import Preseed.HardwareTuning.Selection

/-!
# The broker's helpers

The broker writes no hardware itself. It runs fixed helper processes, a worker for
each vendor and the policy helper, and saves its controls file. `Services` is the
interface of these operations, `World` is what the helpers act on, as far as the
broker depends on it, and `services` says how they may behave.
-/

namespace Preseed.HardwareTuning

open Effects

/-- `LoadState` of a unit; `notManaged` stands for a unit outside the configuration. -/
inductive LoadState
  | loaded | masked | notFound | notManaged
  deriving DecidableEq

/-- `ActiveState` of a unit. -/
inductive ActiveState
  | active | inactive | failed | activating | deactivating | reloading | refreshing | maintenance
  | notManaged
  deriving DecidableEq

/-- `GetUnitFileState` of a unit. -/
inductive FileState
  | enabled | enabledRuntime | disabled | masked | maskedRuntime | static | indirect | linked
  | linkedRuntime | alias | generated | transient | notFound | notManaged
  deriving DecidableEq

/-- The state of a unit as the policy helper reports it. -/
structure UnitStatus where
  /-- `load`. -/
  load : LoadState
  /-- `active`. -/
  active : ActiveState
  /-- `file`. -/
  file : FileState
  deriving DecidableEq

/-- The result of the policy helper. -/
structure PolicyStatus where
  /-- The state of the power-profiles daemon. -/
  ppd : UnitStatus
  /-- The state of the autostart unit. -/
  autostartUnit : UnitStatus
  /-- The durable ownership record. -/
  claimed : Bool
  deriving DecidableEq

/-- `ACTIONS` of the policy helper. -/
inductive PolicyAction
  | status | prepareRuntime | prepareBoot | activate | stop | disable | recover
  deriving DecidableEq

/-- A handback of the policy that is still to be done. -/
inductive Release
  | stop | disable
  deriving DecidableEq

/-- The command that does a handback. -/
def Release.action : Release → PolicyAction
  | .stop => .stop
  | .disable => .disable

/-- The command hands the policy back. -/
def PolicyAction.givesBack : PolicyAction → Bool
  | .stop | .disable | .recover => true
  | .status | .prepareRuntime | .prepareBoot | .activate => false

/-- The command takes the policy. -/
def PolicyAction.takes : PolicyAction → Bool
  | .prepareRuntime | .prepareBoot => true
  | .status | .activate | .stop | .disable | .recover => false

/-- The content of `controls.json`, version 2. -/
structure Controls where
  /-- Automatic tuning is on. -/
  automatic : Bool
  /-- The manual selections. -/
  manual : Vendor → Option Profile
  /-- Tuning is paused for sleep. -/
  paused : Bool
  /-- The faulted vendors. -/
  faults : Vendor → Option String
  /-- The handback that is still to be done. -/
  policyRelease : Option Release
  /-- The last error of the policy helper. -/
  policyError : String

/-- How a helper process may end: with its result, with an error message, without having been
started, without a known outcome, or cancelled before or after it was started. -/
inductive Child (α : Type)
  | ok (result : α)
  | failed (text : String)
  | notStarted (text : String)
  | lost
  | cancelled (started : Bool)

/-- What the broker asks of its helpers, the file system, the seat and the power supply. -/
inductive Service
  | reset (vendor : Vendor)
  | apply (vendor : Vendor) (profile : Profile)
  | health (vendor : Vendor)
  | report (vendor : Vendor)
  | policy (action : PolicyAction)
  | save (controls : Controls)
  | load
  | seatActive
  | onAc
  | autostartLink

/-- The answers. An apply answers whether it owns controls, a health check with the conflicts. -/
def Service.Reply : Service → Type
  | .reset _ | .report _ => Child Unit
  | .apply _ _ => Child Bool
  | .health _ => Child (List String)
  | .policy _ => Child PolicyStatus
  | .save _ => Except Failure Unit
  | .load => Except Failure (Option Controls)
  | .seatActive | .onAc | .autostartLink => Bool

/-- The interface of the broker. -/
abbrev Services : Interface := ⟨Service, Service.Reply⟩

/-- What the helpers act on. `prepared`, `saveFailed` and `seatLost` are ghosts. -/
structure World where
  /-- The journal of a vendor has entries: its controls are owned. -/
  journal : Vendor → Bool
  /-- The durable record of the policy helper. -/
  claimed : Bool
  /-- Since the last `stop` or `disable`, the policy has been taken successfully. -/
  prepared : Bool
  /-- The controls file. -/
  durable : Option Controls
  /-- A save has failed since the broker was started. -/
  saveFailed : Bool
  /-- The seat has been seen inactive since the broker was started. -/
  seatLost : Bool

/-- The handback that the controls file asks for. -/
def World.savedRelease (w : World) : Option Release := w.durable.bind Controls.policyRelease

/-- The world after a worker of a vendor. -/
def World.withJournal (w : World) (vendor : Vendor) (owned : Bool) : World :=
  { w with journal := Function.update w.journal vendor owned }

/-- The helper process has ended with its result. -/
def Child.succeeds {α : Type} : Child α → Bool
  | .ok _ => true
  | .failed _ | .notStarted _ | .lost | .cancelled _ => false

/-- The helper has not been cancelled, unless this may happen. -/
def Child.Admitted {α : Type} (cancellable : Prop) : Child α → Prop
  | .cancelled _ => cancellable
  | .ok _ | .failed _ | .notStarted _ | .lost => True

/-- The policy helper's effect. Taking the policy records the claim before anything else;
handing it back drops the claim last. -/
def World.Policed (w : World) (action : PolicyAction) (succeeds : Bool) (w' : World) : Prop :=
  if action.takes then
    ∃ claimed, (w.claimed = true → claimed = true) ∧ (succeeds = true → claimed = true) ∧
      w' = { w with claimed := claimed, prepared := w.prepared || succeeds }
  else if action.givesBack then
    ∃ claimed, (claimed = true → w.claimed = true) ∧
      (succeeds = true → action ≠ .recover → claimed = false) ∧
      w' = { w with claimed := claimed, prepared := false }
  else w' = w

/-- How the helpers may behave towards the broker, whatever its memory is. A reset that succeeds
leaves an empty journal, an apply that fails may leave anything, and a failed save may have
replaced the file or not. -/
def services {σ : Type} (cancellable : Prop) : Environment Services σ World := fun w _ op =>
  match op with
  | .reset vendor => fun (answer : Child Unit) w' => answer.Admitted cancellable ∧
    ∃ owned, (owned = true → w.journal vendor = true) ∧ (answer.succeeds = true → owned = false) ∧
      w' = w.withJournal vendor owned
  | .apply vendor _ => fun (answer : Child Bool) w' => answer.Admitted cancellable ∧
    ∃ owned, (∀ controls, answer = .ok controls → owned = true → controls = true) ∧
      w' = w.withJournal vendor owned
  | .health _ => fun (answer : Child (List String)) w' => answer.Admitted cancellable ∧ w' = w
  | .report _ => fun (answer : Child Unit) w' => answer.Admitted cancellable ∧ w' = w
  | .policy action => fun (answer : Child PolicyStatus) w' => answer.Admitted cancellable ∧
    (∀ status, answer = .ok status → status.claimed = w'.claimed) ∧
      w.Policed action answer.succeeds w'
  | .save controls => fun (answer : Except Failure Unit) w' =>
    answer = .ok () ∧ w' = { w with durable := some controls } ∨
    (∃ e, answer = .error e ∧ e.isException = true) ∧
      ∃ durable, (durable = w.durable ∨ durable = some controls) ∧
        w' = { w with durable := durable, saveFailed := true }
  | .load => fun (answer : Except Failure (Option Controls)) w' => w' = w ∧
    (answer = .ok w.durable ∨ ∃ e, answer = .error e ∧ e.isException = true)
  | .seatActive => fun (active : Bool) w' =>
    w' = { w with seatLost := w.seatLost || !active }
  | .onAc | .autostartLink => fun _ w' => w' = w

end Preseed.HardwareTuning
