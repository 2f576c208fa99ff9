import Preseed.HardwareTuning.BrokerRules
import Preseed.HardwareTuning.Daemon

/-!
# Runs that can be evaluated

A scenario is a list of events with scripted helpers. `Daemon.run?` evaluates it, and
whatever it evaluates to is a state of a run.
-/

namespace Preseed.HardwareTuning

open Effects

/-- How the helpers answer: which operations fail, and what is read. -/
structure Script where
  /-- The operation fails. -/
  fails : Service → Bool
  /-- The autostart unit is enabled. -/
  autostart : Bool
  /-- The seat is active. -/
  seat : Bool

/-- Nothing fails. -/
def Script.working : Script := ⟨fun _ => false, false, true⟩

/-- The report of the policy helper on a machine without a power-profiles daemon. -/
def Script.status (script : Script) (claimed : Bool) : PolicyStatus where
  ppd := ⟨.notFound, .inactive, .notFound⟩
  autostartUnit := ⟨.loaded, .inactive, if script.autostart then .enabled else .disabled⟩
  claimed := claimed

/-- A helper process that fails, or has a result. -/
def scripted {α : Type} (fails : Bool) (before : World) (result : α) (after : World) :
    Child α × World :=
  if fails then (.failed "scripted failure", before) else (.ok result, after)

/-- The world after a policy command that has been begun or done. -/
def World.afterPolicy (w : World) (action : PolicyAction) (done : Bool) : World :=
  if action.takes then { w with claimed := w.claimed || done, prepared := w.prepared || done }
  else if action.givesBack then { w with claimed := w.claimed && !done, prepared := false }
  else w

/-- The answer of scripted helpers. A failing helper changes nothing, except that a failing
handback may have begun. -/
def Script.respond (script : Script) (w : World) (_ : Broker) : (op : Service) → op.Reply × World
  | .reset vendor => scripted (script.fails (.reset vendor)) w () (w.withJournal vendor false)
  | .apply vendor profile =>
    scripted (script.fails (.apply vendor profile)) w true (w.withJournal vendor true)
  | .health vendor => scripted (script.fails (.health vendor)) w [] w
  | .report vendor => scripted (script.fails (.report vendor)) w () w
  | .policy action =>
    scripted (script.fails (.policy action)) (w.afterPolicy action false)
      (script.status (w.afterPolicy action true).claimed) (w.afterPolicy action true)
  | .save controls => if script.fails (.save controls)
    then (.error ⟨.osError, "save failed"⟩, { w with saveFailed := true })
    else (.ok (), { w with durable := some controls })
  | .load => (if script.fails .load then .error (tuningError "load failed") else .ok w.durable, w)
  | .seatActive => (script.seat, { w with seatLost := w.seatLost || !script.seat })
  | .onAc => (true, w)
  | .autostartLink => (script.autostart, w)

private theorem policed_afterPolicy (w : World) (action : PolicyAction) (done : Bool) :
    w.Policed action done (w.afterPolicy action done) := by
  unfold World.Policed World.afterPolicy
  split
  · exact ⟨_, by simp +contextual, by simp +contextual, rfl⟩
  · split
    · exact ⟨_, by simp +contextual, by simp +contextual, rfl⟩
    · rfl

private theorem services_policy_failed {cancellable : Prop} {w w' : World} {s : Broker}
    {action : PolicyAction} {text : String} (h : w.Policed action false w') :
    services cancellable w s (.policy action) (Child.failed text : Child PolicyStatus) w' := by
  refine ⟨trivial, ?_, h⟩
  intro status hstatus
  cases hstatus

private theorem services_policy_ok {cancellable : Prop} {w w' : World} {s : Broker}
    {action : PolicyAction} {status : PolicyStatus} (hclaimed : status.claimed = w'.claimed)
    (h : w.Policed action true w') :
    services cancellable w s (.policy action) (Child.ok status) w' := by
  refine ⟨trivial, ?_, h⟩
  intro status' hstatus
  cases hstatus
  exact hclaimed

/-- Scripted helpers behave as the broker's helpers may. -/
theorem Script.respond_services (script : Script) (cancellable : Prop) (w : World) (s : Broker)
    (op : Service) :
    services cancellable w s op (script.respond w s op).1 (script.respond w s op).2 := by
  cases op with
  | reset vendor =>
    simp only [Script.respond]
    cases script.fails (.reset vendor) with
    | true => exact ⟨trivial, w.journal vendor, id, nofun, (w.withJournal_self vendor).symm⟩
    | false => exact ⟨trivial, false, nofun, fun _ => rfl, rfl⟩
  | apply vendor profile =>
    simp only [Script.respond]
    cases script.fails (.apply vendor profile) with
    | true => exact ⟨trivial, w.journal vendor, nofun, (w.withJournal_self vendor).symm⟩
    | false => exact ⟨trivial, true, fun _ hanswer _ => by cases hanswer; rfl, rfl⟩
  | health vendor =>
    simp only [Script.respond]
    cases script.fails (.health vendor) <;> exact ⟨trivial, rfl⟩
  | report vendor =>
    simp only [Script.respond]
    cases script.fails (.report vendor) <;> exact ⟨trivial, rfl⟩
  | policy action =>
    simp only [Script.respond]
    cases script.fails (.policy action) with
    | true => exact services_policy_failed (policed_afterPolicy w action false)
    | false => exact services_policy_ok rfl (policed_afterPolicy w action true)
  | save controls =>
    simp only [Script.respond]
    cases script.fails (.save controls) with
    | true => exact .inr ⟨⟨_, rfl, rfl⟩, w.durable, .inl rfl, rfl⟩
    | false => exact .inl ⟨rfl, rfl⟩
  | load =>
    simp only [Script.respond]
    cases script.fails .load with
    | true => exact ⟨rfl, .inr ⟨_, rfl, rfl⟩⟩
    | false => exact ⟨rfl, .inl rfl⟩
  | seatActive => exact rfl
  | onAc => exact rfl
  | autostartLink => exact rfl

/-- An event of a scenario. -/
inductive Event
  | connect (call : Call)
  | signal
  | answers (script : Script) (n : ℕ)
  | conclude
  | accept (call : Call)
  | disconnect (lease : Lease)
  | tick
  | close
  | shutdown

namespace Daemon

variable {config : Config} {admissible : Broker → World → Prop}

/-- The end of a section under the lock. -/
def conclude (config : Config) (admits : Broker → World → Bool) (d : Daemon) (s : Broker) :
    Task → Except Failure Unit → Option Daemon
  | .recoverAll, .ok _ =>
    if admits s d.world then some (d.enter .settle (Broker.settle config) s) else none
  | .recoverAll, .error _ | .settle, .error _ => some (d.leave s).closing
  | .settle, .ok _ => some { d.leave s with phase := .serving }
  | .prepareHold profile, .ok _ => some (d.grantHold config s profile)
  | .tick, .error _ =>
    some { d.leave s with phase := if d.phase = .serving then .failed else d.phase }
  | .shutdown, _ => some { d.leave s with phase := .ended }
  | .prepareHold _, .error _ | .control _, _ | .granted, _ | .released, _ | .tick, .ok _ =>
    some (d.leave s)

/-- A request gets the lock. -/
def accept (config : Config) (d : Daemon) (s : Broker) : Call → Option Daemon
  | .control peer request => some
    ({ d with waiting := d.waiting.erase (.control peer request) }.enter (.control request)
      (Broker.action config request peer) s)
  | .lease .desktop vendor profile => some
    ({ d with waiting := d.waiting.erase (.lease .desktop vendor profile) }.grantLease config s
      vendor profile)
  | .lease .root _ _ => none
  | .hold peer profile => some
    ({ d with waiting := d.waiting.erase (.hold peer profile) }.enter (.prepareHold profile)
      (Broker.prepareHold config peer) s)

/-- The state after an event, if the event is possible. -/
def next? (config : Config) (admits : Broker → World → Bool) (d : Daemon) : Event → Option Daemon
  | .connect call => if call.valid config then some { d with waiting := call :: d.waiting } else none
  | .signal => some { d with stop := true }
  | .answers script n =>
    match d.activity with
    | .idle _ => none
    | .running task p =>
      let (w, p) := p.runFor script.respond n d.world
      some { d with world := w, activity := .running task p }
  | .conclude =>
    match d.activity with
    | .running task (.done (x, s)) => d.conclude config admits s task x
    | _ => none
  | .accept call =>
    match d.activity with
    | .idle s => if d.phase ≠ .initializing ∧ d.stop = false ∧ call ∈ d.waiting
      then d.accept config s call else none
    | .running _ _ => none
  | .disconnect lease =>
    match d.activity with
    | .idle s => if lease ∈ d.granted then some (d.release config s lease) else none
    | .running _ _ => none
  | .tick =>
    match d.activity with
    | .idle s => if d.phase = .serving then some (d.enter .tick (Broker.reconcile config true) s)
      else none
    | .running _ _ => none
  | .close => if d.phase = .serving ∧ d.stop = true ∨ d.phase = .failed then some d.closing else none
  | .shutdown =>
    match d.activity with
    | .idle s => if d.phase = .closing
      then some ({ d with phase := .restoring }.enter .shutdown (Broker.shutdown config) s) else none
    | .running _ _ => none

/-- The state after a scenario. -/
def run? (config : Config) (admits : Broker → World → Bool) (d : Daemon) (events : List Event) :
    Option Daemon :=
  events.foldlM (next? config admits) d

variable {d : Daemon}

/-- Answers to a section are steps of the daemon. -/
theorem Reached.answers (h : Reached config admissible d) {task : Task}
    {p p' : Program Services Broker (Except Failure Unit × Broker)} {w' : World}
    (hrunning : d.activity = .running task p)
    (hsteps : Program.Steps (services (task = .tick ∧ d.phase = .closing)) d.world p w' p') :
    Reached config admissible { d with world := w', activity := .running task p' } := by
  obtain ⟨world, stop, phase, waiting, granted, activity⟩ := d
  cases hrunning
  simp only at hsteps
  induction hsteps with
  | refl => exact h
  | step answered _ ih => exact ih (h.step (.answer rfl answered))

variable {admits : Broker → World → Bool} {d' : Daemon}

section

variable (hadmits : ∀ s w, admits s w = true → admissible s w)
include hadmits

/-- The end of a section is a step of the daemon. -/
theorem Reached.conclude {task : Task}
    {x : Except Failure Unit} {s : Broker} (h : Reached config admissible d)
    (hrunning : d.activity = .running task (.done (x, s)))
    (hnext : d.conclude config admits s task x = some d') : Reached config admissible d' := by
  cases task with
  | recoverAll =>
    cases x with
    | ok _ =>
      simp only [Daemon.conclude, Option.ite_none_right_eq_some, Option.some.injEq] at hnext
      obtain ⟨hadmitted, rfl⟩ := hnext
      exact h.step (.recovered hrunning (hadmits _ _ hadmitted))
    | error e =>
      cases hnext
      exact h.step (.startupFailed (.inl rfl) hrunning)
  | settle =>
    cases x with
    | ok _ =>
      cases hnext
      exact h.step (.ready hrunning)
    | error e =>
      cases hnext
      exact h.step (.startupFailed (.inr rfl) hrunning)
  | control request =>
    cases hnext
    exact h.step (.handled (.inl ⟨request, rfl⟩) hrunning)
  | prepareHold profile =>
    cases x with
    | ok _ =>
      cases hnext
      exact h.step (.holdPrepared hrunning)
    | error e =>
      cases hnext
      exact h.step (.holdRefused hrunning)
  | granted =>
    cases hnext
    exact h.step (.handled (.inr (.inl rfl)) hrunning)
  | released =>
    cases hnext
    exact h.step (.handled (.inr (.inr rfl)) hrunning)
  | tick =>
    cases x with
    | ok _ =>
      cases hnext
      exact h.step (.tickDone hrunning)
    | error e =>
      cases hnext
      exact h.step (.tickFailed hrunning)
  | shutdown =>
    cases hnext
    exact h.step (.finished hrunning)

/-- A possible event leads to a state of a run. -/
theorem Reached.next {event : Event}
    (h : Reached config admissible d) (hnext : d.next? config admits event = some d') :
    Reached config admissible d' := by
  obtain ⟨world, stop, phase, waiting, granted, activity⟩ := d
  cases event with
  | connect call =>
    simp only [next?, Option.ite_none_right_eq_some, Option.some.injEq] at hnext
    obtain ⟨hvalid, rfl⟩ := hnext
    exact h.step (.connect _ call hvalid)
  | signal =>
    cases hnext
    exact h.step (.signal _)
  | answers script n =>
    cases activity with
    | idle s => cases hnext
    | running task p =>
      cases hnext
      exact h.answers rfl (Program.Steps.of_runFor
        (fun w s op => script.respond_services _ w s op) n world p)
  | conclude =>
    cases activity with
    | idle s => cases hnext
    | running task p =>
      cases p with
      | call s op next => cases hnext
      | done x =>
        obtain ⟨x, s⟩ := x
        exact h.conclude hadmits rfl hnext
  | accept call =>
    cases activity with
    | running task p => cases hnext
    | idle s =>
      simp only [next?, Option.ite_none_right_eq_some] at hnext
      obtain ⟨⟨hready, hstop, hwaiting⟩, hnext⟩ := hnext
      cases call with
      | control peer request =>
        cases hnext
        exact h.step (.accept rfl hready hstop hwaiting)
      | lease peer vendor profile =>
        cases peer <;> cases hnext
        exact h.step (.acceptLease rfl hready hstop hwaiting)
      | hold peer profile =>
        cases hnext
        exact h.step (.acceptHold rfl hready hstop hwaiting)
  | disconnect lease =>
    cases activity with
    | running task p => cases hnext
    | idle s =>
      simp only [next?, Option.ite_none_right_eq_some, Option.some.injEq] at hnext
      obtain ⟨hlive, rfl⟩ := hnext
      exact h.step (.disconnect rfl hlive)
  | tick =>
    cases activity with
    | running task p => cases hnext
    | idle s =>
      simp only [next?, Option.ite_none_right_eq_some, Option.some.injEq] at hnext
      obtain ⟨hserving, rfl⟩ := hnext
      exact h.step (.tick rfl hserving)
  | close =>
    simp only [next?, Option.ite_none_right_eq_some, Option.some.injEq] at hnext
    obtain ⟨hdue, rfl⟩ := hnext
    exact h.step (.close hdue)
  | shutdown =>
    cases activity with
    | running task p => cases hnext
    | idle s =>
      simp only [next?, Option.ite_none_right_eq_some, Option.some.injEq] at hnext
      obtain ⟨hclosing, rfl⟩ := hnext
      exact h.step (.shutdown rfl hclosing)

/-- A possible scenario leads to a state of a run. -/
theorem Reached.run {events : List Event}
    (h : Reached config admissible d) (hrun : d.run? config admits events = some d') :
    Reached config admissible d' := by
  induction events generalizing d with
  | nil =>
    cases hrun
    exact h
  | cons event events ih =>
    obtain ⟨d₁, hnext, hrest⟩ := Option.bind_eq_some_iff.mp hrun
    exact ih (h.next hadmits hnext) hrest

end

end Daemon

end Preseed.HardwareTuning
