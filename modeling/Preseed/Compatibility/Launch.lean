import Mathlib.Logic.Function.Basic

/-!
# Launching a compatibility application

The launchers of one application and the services they start, with two locks.
`launch.lock` is held by one launcher from its probe to its report; `instance.lock` is
held by a service for its lifetime, and for a moment by a launcher that probes it. A
launcher is identified with the service it starts, of which there is at most one.
-/

namespace Preseed.Compatibility.Launching

/-- Where a launcher is in `redirect_wayland_compat_to_session_unit`. -/
inductive Launcher
  /-- `acquire_lock(fd, deadline)`. -/
  | waiting
  /-- The lock attempt of `request_activation`. -/
  | asking
  /-- `request_activation` has taken `instance.lock` and looks for a live endpoint. -/
  | probing
  /-- `request_activation` has returned `False`. -/
  | free
  /-- `request_activation` found the lock taken and speaks to the running instance. -/
  | activating
  /-- The service is started; the lock attempt of `instance_owned`. -/
  | polling
  /-- `instance_owned` has taken `instance.lock`. -/
  | checking
  /-- `instance_owned` has returned `True`. -/
  | owned
  /-- An exception; `launch.lock` is still open. -/
  | failing
  /-- `launch-accepted` with the target `existing-instance`. -/
  | accepted
  /-- `launch-accepted` with the target `session-unit`. -/
  | reported
  /-- `fail(...)`, or the process died. -/
  | gone
  deriving DecidableEq

/-- The launcher has `launch.lock`. -/
def Launcher.holds : Launcher → Bool
  | asking | probing | free | activating | polling | checking | owned | failing => true
  | waiting | accepted | reported | gone => false

/-- The launcher has `instance.lock` for a moment. -/
def Launcher.probes : Launcher → Bool
  | probing | checking => true
  | _ => false

/-- Who holds `instance.lock`. -/
inductive Holder (L : Type)
  | probe (launcher : L)
  | service (launcher : L)
  deriving DecidableEq

/-- Where a service is. -/
inductive Service (L : Type)
  | absent
  /-- Started, on its way to `CompatibilityInstance.__enter__`. -/
  | starting
  /-- The service holds `instance.lock`. -/
  | running
  /-- The lock attempt has raised `BlockingIOError`; the lock was held by `holder`. -/
  | refused (holder : Holder L)
  /-- The service has ended; it had taken the lock, or died before. -/
  | ended (held : Bool)
  deriving DecidableEq

/-- The service has taken the lock. -/
def Service.took {L : Type} : Service L → Bool
  | running | ended true => true
  | _ => false

/-- The launchers, their services, and the locks. -/
structure Session (L : Type) where
  launcher : L → Launcher
  service : L → Service L
  /-- `launch.lock`. -/
  launchLock : Option L
  /-- `instance.lock`. -/
  instanceLock : Option (Holder L)

/-- What may happen next. -/
inductive Move (L : Type)
  /-- A lock attempt of `acquire_lock`. -/
  | acquire (l : L)
  /-- A lock attempt of `request_activation`. -/
  | ask (l : L)
  /-- No live endpoint; `request_activation` closes `instance.lock` and returns `False`. -/
  | release (l : L)
  /-- The running instance is not ready, or is about to end. -/
  | again (l : L)
  /-- The running instance has accepted; `launch.lock` is closed. -/
  | activate (l : L)
  /-- `subprocess.Popen` of systemd-run. -/
  | start (l : L)
  /-- A lock attempt of `instance_owned`. -/
  | poll (l : L)
  /-- `instance_owned` closes `instance.lock` and returns `False`. -/
  | unprobe (l : L)
  /-- `launch.lock` is closed and the session unit is reported. -/
  | report (l : L)
  /-- An exception or a passed deadline; an open `instance.lock` is closed. -/
  | fail (l : L)
  /-- `launch.lock` is closed after an exception. -/
  | close (l : L)
  /-- The launcher dies. -/
  | kill (l : L)
  /-- The lock attempt of `CompatibilityInstance.__enter__`. -/
  | take (l : L)
  /-- The service ends or dies. -/
  | exit (l : L)
  deriving DecidableEq

variable {L : Type} [DecidableEq L]

namespace Session

/-- Nobody has begun. -/
def initial : Session L := ⟨fun _ => .waiting, fun _ => .absent, none, none⟩

/-- The launcher goes on. -/
def goes (s : Session L) (l : L) (k : Launcher) : Session L :=
  { s with launcher := Function.update s.launcher l k }

/-- The service goes on. -/
def turns (s : Session L) (l : L) (k : Service L) : Session L :=
  { s with service := Function.update s.service l k }

/-- `launch.lock` is free if the launcher had it. -/
def unlaunch (s : Session L) (l : L) : Session L :=
  { s with launchLock := if s.launchLock = some l then none else s.launchLock }

/-- `instance.lock` is free if this holder had it. -/
def unlock (s : Session L) (h : Holder L) : Session L :=
  { s with instanceLock := if s.instanceLock = some h then none else s.instanceLock }

/-- One move, if it is possible. -/
def step (s : Session L) : Move L → Option (Session L)
  | .acquire l =>
    if s.launcher l ≠ .waiting then none
    else if s.launchLock = none then some { s.goes l .asking with launchLock := some l }
    else some s
  | .ask l =>
    if s.launcher l ≠ .asking then none
    else if s.instanceLock = none then
      some { s.goes l .probing with instanceLock := some (.probe l) }
    else some (s.goes l .activating)
  | .release l =>
    if s.launcher l ≠ .probing then none else some ((s.goes l .free).unlock (.probe l))
  | .again l => if s.launcher l ≠ .activating then none else some (s.goes l .asking)
  | .activate l =>
    if s.launcher l ≠ .activating then none else some ((s.goes l .accepted).unlaunch l)
  | .start l =>
    if s.launcher l ≠ .free then none else some ((s.goes l .polling).turns l .starting)
  | .poll l =>
    if s.launcher l ≠ .polling then none
    else if s.instanceLock = none then
      some { s.goes l .checking with instanceLock := some (.probe l) }
    else some (s.goes l .owned)
  | .unprobe l =>
    if s.launcher l ≠ .checking then none else some ((s.goes l .polling).unlock (.probe l))
  | .report l =>
    if s.launcher l ≠ .owned then none else some ((s.goes l .reported).unlaunch l)
  | .fail l =>
    match s.launcher l with
    | .waiting => some (s.goes l .gone)
    | .asking | .free | .activating | .polling => some (s.goes l .failing)
    | .probing | .checking => some ((s.goes l .failing).unlock (.probe l))
    | .owned | .failing | .accepted | .reported | .gone => none
  | .close l =>
    if s.launcher l ≠ .failing then none else some ((s.goes l .gone).unlaunch l)
  | .kill l =>
    match s.launcher l with
    | .accepted | .reported | .gone => none
    | _ => some (((s.goes l .gone).unlaunch l).unlock (.probe l))
  | .take l =>
    if s.service l ≠ .starting then none
    else
      match s.instanceLock with
      | none => some { s.turns l .running with instanceLock := some (.service l) }
      | some holder => some (s.turns l (.refused holder))
  | .exit l =>
    match s.service l with
    | .starting => some (s.turns l (.ended false))
    | .running => some ((s.turns l (.ended true)).unlock (.service l))
    | .absent | .refused _ | .ended _ => none

/-- Move after move. -/
def run? (s : Session L) (moves : List (Move L)) : Option (Session L) := moves.foldlM step s

end Session

end Preseed.Compatibility.Launching
