import Preseed.HardwareTuning.Broker

/-!
# The daemon

`Broker.serve`, `Broker.poll` and `Broker.run`: the coroutines around the broker's
lock. At most one of them is between two operations of the broker at a time, and
the others connect, wait, disconnect or close meanwhile. `Daemon.Step` is one step
of any of them, or one answer of a helper, and `Daemon.Reached` are the states of
all runs, over all restarts.
-/

namespace Preseed.HardwareTuning

open Effects

/-- A valid request of a connection that waits for the lock. -/
inductive Call
  | control (peer : Peer) (request : ControlRequest)
  | lease (peer : Peer) (vendor : Vendor) (profile : Profile)
  | hold (peer : Peer) (profile : Profile)
  deriving DecidableEq

/-- `Broker.validate_request`. -/
def Call.valid (config : Config) : Call → Bool
  | .control _ request => request.valid config
  | .lease _ vendor _ => config.vendors.contains vendor
  | .hold _ profile => profile ∈ [.silent, .performance]

/-- What a connection holds until it is closed: `lease` of `Broker.serve`. -/
inductive Lease
  | app (vendor : Vendor) (profile : Profile)
  | power (profile : Profile) (generation : ℕ)
  deriving DecidableEq

namespace Broker

/-- The part of `Broker.serve` before a hold is granted. -/
def prepareHold (config : Config) (peer : Peer) : BrokerAct Unit := do
  let refused := tuningError "power holds require the active configured desktop account"
  if peer ≠ .desktop then Act.raise refused
  else do
    let active ← seatActive
    if active = false then Act.raise refused else preparePowerProfile config

/-- The part of `Broker.serve` after a hold is granted. -/
def reconcileHold (config : Config) : BrokerAct Unit := do
  reconcile config false
  let s ← Act.get
  Act.when (s.anyFault config)
    (Act.raise (tuningError "power hold could not be applied; inspect hardware tuning status"))

/-- The memory after a hold has been granted. -/
def grantHold (s : Broker) (profile : Profile) : Broker :=
  { s with powerHolds := s.powerHolds.increment profile }

/-- The memory after a lease has been granted. -/
def grantLease (s : Broker) (vendor : Vendor) (profile : Profile) : Except Failure Broker :=
  (s.changeLease vendor profile 1).map fun selection => { s with toSelection := selection }

/-- The `finally` of `Broker.serve`, under the lock. A hold that has been cleared since is
forgotten. -/
def release (s : Broker) : Lease → Except Failure Broker
  | .power profile generation =>
    if generation = s.powerGeneration then
      .ok { s with powerHolds := s.powerHolds.put profile (s.powerHolds.count profile - 1) }
    else .ok s
  | .app vendor profile =>
    (s.changeLease vendor profile (-1)).map fun selection => { s with toSelection := selection }

/-- The restoration at the end of `Broker.run`. -/
def shutdown (config : Config) : BrokerAct Unit :=
  Act.forEach config.vendors fun vendor => attempt (restore vendor) fun _ => pure ()

end Broker

/-- What holds the lock, or initializes. -/
inductive Task
  | recoverAll
  | settle
  | control (request : ControlRequest)
  | prepareHold (profile : Profile)
  | granted
  | released
  | tick
  | shutdown
  deriving DecidableEq

/-- How far `Broker.run` has come. The monitor has `failed` when its task has ended with an
exception and `run` has not been resumed yet. -/
inductive Phase
  | initializing | serving | failed | closing | restoring | ended
  deriving DecidableEq

/-- The broker is between two sections under the lock, or in one of them. -/
inductive Activity
  | idle (memory : Broker)
  | running (task : Task) (program : Program Services Broker (Except Failure Unit × Broker))

/-- The state of the daemon. -/
structure Daemon where
  /-- What the helpers act on. -/
  world : World
  /-- `self.stop`. -/
  stop : Bool
  /-- How far `Broker.run` has come. -/
  phase : Phase
  /-- The requests that wait for the lock. -/
  waiting : List Call
  /-- What the live connections hold. -/
  granted : List Lease
  /-- What the broker is doing. -/
  activity : Activity

namespace Daemon

/-- The broker's memory; in a section, as it was at the last operation. -/
def memory (d : Daemon) : Broker :=
  match d.activity with
  | .idle s => s
  | .running _ p => p.memory

/-- The operation a section has issued, with the broker's memory. -/
def issued? (d : Daemon) : Option (Broker × Service) :=
  match d.activity with
  | .idle _ => none
  | .running _ p => p.issued?

/-- The daemon begins a section under the lock. -/
def enter (d : Daemon) (task : Task) (program : BrokerAct Unit) (s : Broker) : Daemon :=
  { d with activity := .running task (program s) }

/-- The daemon leaves a section under the lock. -/
def leave (d : Daemon) (s : Broker) : Daemon := { d with activity := .idle s }

/-- The `finally` of `Broker.run` begins. -/
def closing (d : Daemon) : Daemon := { d with stop := true, phase := .closing }

/-- `Broker.run` begins, in the world that the process before has left. -/
def boot (config : Config) (w : World) (active : Bool) : Daemon where
  world := { w with saveFailed := false, seatLost := false }
  stop := false
  phase := .initializing
  waiting := []
  granted := []
  activity := .running .recoverAll (Broker.recoverAll config (.initial active))

/-- A lease is granted. -/
def grantLease (d : Daemon) (config : Config) (s : Broker) (vendor : Vendor) (profile : Profile) :
    Daemon :=
  let d := { d with granted := .app vendor profile :: d.granted }
  match s.grantLease vendor profile with
  | .ok s => d.enter .granted (Broker.reconcile config false) s
  | .error _ => d.leave s

/-- A hold is granted. -/
def grantHold (d : Daemon) (config : Config) (s : Broker) (profile : Profile) : Daemon :=
  { d with granted := .power profile s.powerGeneration :: d.granted }.enter .granted
    (Broker.reconcileHold config) (s.grantHold profile)

/-- A connection is closed. -/
def release (d : Daemon) (config : Config) (s : Broker) (lease : Lease) : Daemon :=
  let d := { d with granted := d.granted.erase lease }
  match s.release lease with
  | .ok s => if d.stop then d.leave s else d.enter .released (Broker.reconcile config false) s
  | .error _ => d.leave s

/-- One step of the daemon. A startup goes on to reconcile only in a state that `admissible`
admits. -/
inductive Step (config : Config) (admissible : Broker → World → Prop) : Daemon → Daemon → Prop
  /-- A client connects, and its valid request waits for the lock. -/
  | connect (d : Daemon) (call : Call) (valid : call.valid config = true) :
    Step config admissible d { d with waiting := call :: d.waiting }
  /-- A request is refused, or its client gives up. -/
  | withdraw (d : Daemon) (call : Call) :
    Step config admissible d { d with waiting := d.waiting.erase call }
  /-- The signal handler. -/
  | signal (d : Daemon) : Step config admissible d { d with stop := true }
  /-- A helper answers. Only the monitor is ever cancelled, when `run` closes. -/
  | answer {d : Daemon} {task : Task} {s : Broker} {op : Service}
      {next : op.Reply → Program Services Broker (Except Failure Unit × Broker)}
      {r : op.Reply} {w' : World} (running : d.activity = .running task (.call s op next))
      (answered : services (task = .tick ∧ d.phase = .closing) d.world s op r w') :
    Step config admissible d { d with world := w', activity := .running task (next r) }
  /-- The recovery of a startup is done. -/
  | recovered {d : Daemon} {s : Broker}
      (running : d.activity = .running .recoverAll (.done (.ok (), s)))
      (admitted : admissible s d.world) :
    Step config admissible d (d.enter .settle (Broker.settle config) s)
  /-- A startup fails. -/
  | startupFailed {d : Daemon} {task : Task} {e : Failure} {s : Broker}
      (startup : task = .recoverAll ∨ task = .settle)
      (running : d.activity = .running task (.done (.error e, s))) :
    Step config admissible d (d.leave s).closing
  /-- A startup is done: `self.ready.set()`. -/
  | ready {d : Daemon} {s : Broker} (running : d.activity = .running .settle (.done (.ok (), s))) :
    Step config admissible d { d.leave s with phase := .serving }
  /-- A control request gets the lock. -/
  | accept {d : Daemon} {s : Broker} {peer : Peer} {request : ControlRequest}
      (idle : d.activity = .idle s) (ready : d.phase ≠ .initializing) (running : d.stop = false)
      (waiting : .control peer request ∈ d.waiting) :
    Step config admissible d
      ({ d with waiting := d.waiting.erase (.control peer request) }.enter (.control request)
        (Broker.action config request peer) s)
  /-- A lease request gets the lock. -/
  | acceptLease {d : Daemon} {s : Broker} {vendor : Vendor} {profile : Profile}
      (idle : d.activity = .idle s) (ready : d.phase ≠ .initializing) (running : d.stop = false)
      (waiting : .lease .desktop vendor profile ∈ d.waiting) :
    Step config admissible d
      ({ d with waiting := d.waiting.erase (.lease .desktop vendor profile) }.grantLease config s
        vendor profile)
  /-- A hold request gets the lock. -/
  | acceptHold {d : Daemon} {s : Broker} {peer : Peer} {profile : Profile}
      (idle : d.activity = .idle s) (ready : d.phase ≠ .initializing) (running : d.stop = false)
      (waiting : .hold peer profile ∈ d.waiting) :
    Step config admissible d
      ({ d with waiting := d.waiting.erase (.hold peer profile) }.enter (.prepareHold profile)
        (Broker.prepareHold config peer) s)
  /-- A hold has been prepared. -/
  | holdPrepared {d : Daemon} {profile : Profile} {s : Broker}
      (running : d.activity = .running (.prepareHold profile) (.done (.ok (), s))) :
    Step config admissible d (d.grantHold config s profile)
  /-- A hold is refused. -/
  | holdRefused {d : Daemon} {profile : Profile} {e : Failure} {s : Broker}
      (running : d.activity = .running (.prepareHold profile) (.done (.error e, s))) :
    Step config admissible d (d.leave s)
  /-- A connection that holds something is closed, and its handler gets the lock. -/
  | disconnect {d : Daemon} {s : Broker} {lease : Lease} (idle : d.activity = .idle s)
      (live : lease ∈ d.granted) :
    Step config admissible d (d.release config s lease)
  /-- The section of a handler ends, with or without an exception. -/
  | handled {d : Daemon} {task : Task} {x : Except Failure Unit} {s : Broker}
      (handler : (∃ request, task = .control request) ∨ task = .granted ∨ task = .released)
      (running : d.activity = .running task (.done (x, s))) :
    Step config admissible d (d.leave s)
  /-- The monitor gets the lock. -/
  | tick {d : Daemon} {s : Broker} (idle : d.activity = .idle s) (serving : d.phase = .serving) :
    Step config admissible d (d.enter .tick (Broker.reconcile config true) s)
  /-- The monitor has reconciled. -/
  | tickDone {d : Daemon} {s : Broker} (running : d.activity = .running .tick (.done (.ok (), s))) :
    Step config admissible d (d.leave s)
  /-- The monitor has ended with an exception. -/
  | tickFailed {d : Daemon} {e : Failure} {s : Broker}
      (running : d.activity = .running .tick (.done (.error e, s))) :
    Step config admissible d
      { d.leave s with phase := if d.phase = .serving then .failed else d.phase }
  /-- `Broker.run` is resumed, because of the signal or the monitor. -/
  | close {d : Daemon} (due : d.phase = .serving ∧ d.stop = true ∨ d.phase = .failed) :
    Step config admissible d d.closing
  /-- The final restoration gets the lock; the monitor has ended. -/
  | shutdown {d : Daemon} {s : Broker} (idle : d.activity = .idle s) (closing : d.phase = .closing) :
    Step config admissible d ({ d with phase := .restoring }.enter .shutdown (Broker.shutdown config) s)
  /-- The daemon ends. -/
  | finished {d : Daemon} {x : Except Failure Unit} {s : Broker}
      (running : d.activity = .running .shutdown (.done (x, s))) :
    Step config admissible d { d.leave s with phase := .ended }

/-- The states of all runs of the daemon. A process may die anywhere, and what it has left may have
been changed by the recovery services, an administrator or a reboot before the next start. -/
inductive Reached (config : Config) (admissible : Broker → World → Prop) : Daemon → Prop
  | boot (w : World) (active : Bool) : Reached config admissible (boot config w active)
  | step {d d' : Daemon} (before : Reached config admissible d) (step : Step config admissible d d') :
    Reached config admissible d'
  | restart {d : Daemon} (before : Reached config admissible d) (w : World) (active : Bool) :
    Reached config admissible (Daemon.boot config w active)

end Daemon

end Preseed.HardwareTuning
