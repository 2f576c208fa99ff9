import Mathlib.Data.List.Basic
import Preseed.Concurrency.Interleaving

/-!
# The memory coordinator

`Coordinator.run`, `restore_once` and `allowed`: processes that share an admission lock, a lease
lock and a state file. A lock is held by the processes whose control point holds it, so a killed
process holds none.
-/

namespace Preseed.Copilots

open Concurrency

/-- `state.json`. -/
structure State where
  pids : List ℕ
  cuda : Bool
  restore : Bool
  deriving DecidableEq

/-- The state of an empty file, which `restore_once` writes back. -/
def State.empty : State := ⟨[], false, false⟩

/-- The control points. The state is the local one. -/
inductive Pc
  | unborn
  | dead
  /-- Alive, without a lock: it returned or raised. -/
  | leaving
  /-- A process of the Whisper service. -/
  | whisper
  /-- `-h`, `--help` or `--version`. -/
  | informational
  | run
  | runAdmitted
  | runLeased
  /-- The process is recorded, in the local state only. -/
  | runRead (s : State)
  /-- The intent is written; the stop is next. -/
  | runIntent (s : State)
  | runStopped (s : State)
  /-- The second write is next. -/
  | runReady (s : State)
  | runWritten
  /-- Out of admission, with the inheritable lease. -/
  | runReleased
  /-- Out of admission by an exception, with the lease. -/
  | runRaised
  /-- The Llama binary, with the inherited lease. -/
  | llama
  | restore
  | restoreAdmitted
  | restoreLeased
  | restoreRead (s : State)
  /-- The recorded processes have exited. -/
  | restoreExited (s : State)
  | restoreStopped (s : State)
  /-- The GPU is released; the lease is held. -/
  | restoreReady (s : State)
  /-- The lease is unlocked. -/
  | restoreReleased (s : State)
  | restoreStarted (s : State)
  /-- The last write is next. -/
  | restoreDone (s : State)
  /-- The lease is closed; admission is still held. -/
  | restoreClosed
  | allowed
  | allowedRead (s : State)
  | allowedLeased (s : State)
  | allowedExited (s : State)
  deriving DecidableEq

/-- A `flock` mode. -/
inductive Hold
  | none | shared | exclusive
  deriving DecidableEq

/-- The process holds `admission.lock`. -/
def Pc.admitted : Pc → Bool
  | runAdmitted | runLeased | runRead _ | runIntent _ | runStopped _ | runReady _ | runWritten
  | restoreAdmitted | restoreLeased | restoreRead _ | restoreExited _ | restoreStopped _
  | restoreReady _ | restoreReleased _ | restoreStarted _ | restoreDone _ | restoreClosed => true
  | unborn | dead | leaving | whisper | informational | run | runReleased | runRaised | llama
  | restore | allowed | allowedRead _ | allowedLeased _ | allowedExited _ => false

/-- The hold of the process on `leases.lock`. -/
def Pc.lease : Pc → Hold
  | runLeased | runRead _ | runIntent _ | runStopped _ | runReady _ | runWritten | runReleased
  | runRaised | llama => .shared
  | restoreLeased | restoreRead _ | restoreExited _ | restoreStopped _ | restoreReady _
  | allowedLeased _ | allowedExited _ => .exclusive
  | unborn | dead | leaving | whisper | informational | run | runAdmitted | restore
  | restoreAdmitted | restoreReleased _ | restoreStarted _ | restoreDone _ | restoreClosed
  | allowed | allowedRead _ => .none

/-- The process has exited, or never lived. -/
def Pc.exited : Pc → Bool
  | unborn | dead => true
  | _ => false

inductive Event
  | silent
  /-- `state.json` was replaced. -/
  | wrote (s : State)
  /-- Whisper was asked to stop, by a run or by `restore_once`. -/
  | stop (byRun : Bool)
  /-- `restore_once` asked Whisper to start. -/
  | start
  /-- `restore_once` found Whisper active after that. -/
  | active
  /-- `whisper-allowed` let Whisper start, after it read the state. -/
  | allow (s : State)
  deriving DecidableEq

abbrev Memory := World ℕ Pc State Event

/-- Nobody is admitted. -/
def Vacant (w : Memory) : Prop := ∀ q, (w.pc q).admitted = false

/-- No process but `p` holds the lease. -/
def Alone (w : Memory) (p : ℕ) : Prop := ∀ q, q ≠ p → (w.pc q).lease = .none

/-- One step of process `p`: its next control point, the state file, the event. What systemctl, the
GPU and the memory figures answer is left open. -/
inductive Step (w : Memory) (p : ℕ) : Pc → State → Event → Prop
  | spawn {k : Pc} (h : w.pc p = .unborn)
      (hk : k = .run ∨ k = .restore ∨ k = .allowed ∨ k = .whisper) : Step w p k w.shared .silent
  | kill (h : w.pc p ≠ .unborn) : Step w p .dead w.shared .silent
  -- run
  | informational (h : w.pc p = .run) : Step w p .informational w.shared .silent
  | admitRun (h : w.pc p = .run) (hvacant : Vacant w) : Step w p .runAdmitted w.shared .silent
  | leaseRun (h : w.pc p = .runAdmitted) (hlease : ∀ q, q ≠ p → (w.pc q).lease ≠ .exclusive) :
      Step w p .runLeased w.shared .silent
  | record (h : w.pc p = .runLeased) (cuda : Bool)
      (hcount : (w.shared.pids ++ [p]).eraseDups.length ≤ 4095) :
      Step w p (.runRead ⟨(w.shared.pids ++ [p]).eraseDups, w.shared.cuda || cuda,
        w.shared.restore⟩) w.shared .silent
  /-- Whisper is not active, or may stay. -/
  | keep {s : State} (h : w.pc p = .runRead s) : Step w p (.runReady s) w.shared .silent
  | intend {s s' : State} (h : w.pc p = .runRead s) (whisperPid : ℕ)
      (hs' : s' = { s with
        pids := if whisperPid = 0 ∨ whisperPid ∈ s.pids then s.pids else s.pids ++ [whisperPid]
        restore := true }) :
      Step w p (.runIntent s') s' (.wrote s')
  | stopRun {s : State} (h : w.pc p = .runIntent s) :
      Step w p (.runStopped s) w.shared (.stop true)
  | stoppedRun {s : State} (h : w.pc p = .runStopped s) : Step w p (.runReady s) w.shared .silent
  | writeRun {s : State} (h : w.pc p = .runReady s) : Step w p .runWritten s (.wrote s)
  | releaseRun (h : w.pc p = .runWritten) : Step w p .runReleased w.shared .silent
  | exec (h : w.pc p = .runReleased) : Step w p .llama w.shared .silent
  | raiseRun (h : (w.pc p).admitted = true) (hlease : (w.pc p).lease = .shared) :
      Step w p .runRaised w.shared .silent
  | closeRun (h : w.pc p = .runAdmitted ∨ w.pc p = .runRaised ∨ w.pc p = .runReleased) :
      Step w p .leaving w.shared .silent
  -- restore_once
  | admitRestore (h : w.pc p = .restore) (hvacant : Vacant w) :
      Step w p .restoreAdmitted w.shared .silent
  | leaseRestore (h : w.pc p = .restoreAdmitted) (halone : Alone w p) :
      Step w p .restoreLeased w.shared .silent
  | readRestore (h : w.pc p = .restoreLeased) :
      Step w p (.restoreRead w.shared) w.shared .silent
  /-- Whisper's own process is not waited for. -/
  | exitedRestore {s : State} (h : w.pc p = .restoreRead s) (whisperPid : ℕ)
      (hexited : ∀ pid ∈ s.pids, s.restore = true ∧ pid = whisperPid ∨
        (w.pc pid).exited = true) :
      Step w p (.restoreExited s) w.shared .silent
  | stopRestore {s : State} (h : w.pc p = .restoreExited s) (hrestore : s.restore = true) :
      Step w p (.restoreStopped s) w.shared (.stop false)
  | stoppedRestore {s : State} (h : w.pc p = .restoreStopped s) :
      Step w p (.restoreReady s) w.shared .silent
  | skipRestore {s : State} (h : w.pc p = .restoreExited s) (hrestore : s.restore = false) :
      Step w p (.restoreReady s) w.shared .silent
  | unlock {s : State} (h : w.pc p = .restoreReady s) :
      Step w p (.restoreReleased s) w.shared .silent
  | startRestore {s : State} (h : w.pc p = .restoreReleased s) (hrestore : s.restore = true) :
      Step w p (.restoreStarted s) w.shared .start
  | activeRestore {s : State} (h : w.pc p = .restoreStarted s) :
      Step w p (.restoreDone s) w.shared .active
  | plainRestore {s : State} (h : w.pc p = .restoreReleased s) (hrestore : s.restore = false) :
      Step w p (.restoreDone s) w.shared .silent
  | clear {s : State} (h : w.pc p = .restoreDone s) :
      Step w p .restoreClosed .empty (.wrote .empty)
  /-- `restore_once` returns or raises. -/
  | endRestore (h : (w.pc p).admitted = true) (hlease : (w.pc p).lease ≠ .shared)
      (hrun : w.pc p ≠ .runAdmitted) : Step w p .restoreClosed w.shared .silent
  | closeRestore (h : w.pc p = .restoreClosed) : Step w p .leaving w.shared .silent
  -- allowed
  | readAllowed (h : w.pc p = .allowed) : Step w p (.allowedRead w.shared) w.shared .silent
  | allowPlain {s : State} (h : w.pc p = .allowedRead s) (hrestore : s.restore = false) :
      Step w p .leaving w.shared (.allow s)
  | leaseAllowed {s : State} (h : w.pc p = .allowedRead s) (hrestore : s.restore = true)
      (halone : Alone w p) : Step w p (.allowedLeased s) w.shared .silent
  | exitedAllowed {s : State} (h : w.pc p = .allowedLeased s)
      (hexited : ∀ pid ∈ s.pids, (w.pc pid).exited = true) :
      Step w p (.allowedExited s) w.shared .silent
  | allow {s : State} (h : w.pc p = .allowedExited s) : Step w p .leaving w.shared (.allow s)
  /-- A process without admission and lease gives up, or refuses. -/
  | giveUp (h : (w.pc p).admitted = false) (hlease : (w.pc p).lease ≠ .shared)
      (hborn : w.pc p ≠ .unborn) (halive : w.pc p ≠ .dead) (hwhisper : w.pc p ≠ .whisper) :
      Step w p .leaving w.shared .silent

/-- No process has started; the state file is empty. -/
def Memory.first : Memory := ⟨fun _ => .unborn, .empty, []⟩

end Preseed.Copilots
