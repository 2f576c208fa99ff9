import Preseed.Effects.Triple
import Preseed.OutputWatch.Refresh

/-!
# The three marker files

What the steps of a refresh do to the idle snapshot, the restore request and the pause marker.
-/

namespace Preseed.OutputWatch

open Effects

variable {τ : Type}

/-- The marker files, and what the run did. -/
structure Markers (τ : Type) where
  snapshot : Option τ
  request : Bool
  pause : Bool
  /-- A wake was requested since the snapshot was taken. -/
  wake : Bool
  /-- The run's last look found the session inactive. -/
  inactive : Bool
  /-- The run could not read or remove the pause marker, or not start Kanshi. -/
  stuck : Bool

def failed : Except Fault Bool → Bool
  | .ok true => false
  | _ => true

/-- A step of `resume_output_authority` that must succeed. -/
def Markers.tried (w : Markers τ) (answer : Except Fault Bool) : Markers τ :=
  { w with stuck := w.stuck || failed answer }

/-- A write that succeeds, or fails with or without its effect. -/
def Writes (w w' : Markers τ) (answer : Except Fault Bool) (m : Markers τ) : Prop :=
  m = w' ∨ answer ≠ .ok true ∧ m = w

/-- What a question does to the marker files, and its answer. Anything may fail. -/
def Ask.does (w : Markers τ) : Ask τ → Except Fault Bool → Markers τ → Prop
  | sessionIsActive, answer, w' =>
    ∃ active, answer = .ok active ∧ w' = { w with inactive := !active }
  | idleTopologyActive, answer, w' => answer = .ok w.snapshot.isSome ∧ w' = w
  | restoreRequested, answer, w' => answer = .ok w.request ∧ w' = w
  | pauseExists, answer, w' => answer = .ok w.pause ∧ w' = w
  | publishPause, answer, w' => Writes w { w with pause := true } answer w'
  | removePause, answer, w' =>
    answer = .ok true ∧ w' = { w with pause := false } ∨
      answer ≠ .ok true ∧ w' = { w with stuck := true }
  | pauseIsOwn, answer, w' | startKanshi, answer, w' | findCommand .systemctl, answer, w' =>
    w' = w.tried answer
  | publishSnapshot topology, answer, w' =>
    Writes w { w with snapshot := some topology, wake := false } answer w'
  | publishRequest, answer, w' => Writes w { w with request := true } answer w'
  | removeSnapshot, answer, w' =>
    (∃ b, answer = .ok b) ∧ (w' = { w with snapshot := none } ∨ w' = w)
  | removeRequest, answer, w' =>
    (∃ b, answer = .ok b) ∧ (w' = { w with request := false } ∨ w' = w)
  | hang, _, _ => False
  | _, _, w' => w' = w

/-- The desktop. A restore request that is left over when a snapshot is taken is excluded by
`stale = false`. -/
def desktop (stale : Bool) : Environment (Desktop τ) Unit (Markers τ) :=
  fun w _ op =>
    match op with
    | .ask question => fun (answer : Except Fault Bool) w' => question.does w answer w' ∧
        (stale = false → ∀ topology, question = .publishSnapshot topology → w.request = false)
    | .captureCommand => fun (_ : Except Fault (Option τ)) w' => w' = w
    | .loadIdleTopology => fun (answer : Except Fault (Option τ)) w' => w' = w ∧
        ∀ topology, answer = .ok (some topology) → w.snapshot = some topology

/-- When a step may be taken: a snapshot is written where there is none; under a snapshot the
geometry changes, and a restoration is requested, only after a wake was requested; and where
Kanshi is configured, outputs change only under the pause marker. -/
def Permitted (policy : Option Bool) (w : Markers τ) (_ : Unit) : Step τ → Prop
  | .ask (.publishSnapshot _) => w.snapshot = none
  | .ask .publishRequest => w.snapshot.isSome = true → w.wake = true
  | .ask .geometry => (w.snapshot.isSome = true → w.wake = true) ∧
      (policy = some true → w.pause = true)
  | .ask (.power _) => policy = some true → w.pause = true
  | _ => True

/-- A restore request beside a snapshot means a wake. -/
def Requested (w : Markers τ) : Prop :=
  w.request = true → w.snapshot.isSome = true → w.wake = true

/-- The outputs are paused, where Kanshi is configured. -/
def Paused (policy : Option Bool) (w : Markers τ) : Prop := policy = some true → w.pause = true

/-- From `P`, a program returns in `Q`, or dies in `R`; every step is permitted. -/
abbrev Spec (policy : Option Bool) {α : Type} (P : Markers τ → Prop) (m : RefreshAct τ α)
    (Q : α → Markers τ → Prop) (R : Markers τ → Prop) : Prop :=
  Triple (desktop false) (Permitted policy) P m Q R

namespace Spec

variable {policy : Option Bool} {α : Type} {P R : Markers τ → Prop}

/-- The rule of a question. -/
theorem ask {question : Ask τ} {Q : Bool → Markers τ → Prop}
    (hpermitted : ∀ w, P w → Permitted policy w () (.ask question))
    (hanswer : ∀ w answer w', P w → question.does w answer w' →
      (∀ topology, question = .publishSnapshot topology → w.request = false) →
      outcome (fun a _ => Q a) (fun _ _ => R) answer () w') :
    Spec policy P (ask question) Q R := by
  intro s w hw
  refine ⟨hpermitted w hw, fun answer w' hdoes => ?_⟩
  exact hanswer w answer w' hw hdoes.1 (hdoes.2 rfl)

/-- A question that touches no marker file. -/
theorem still {question : Ask τ} (hdoes : ∀ w answer w', question.does w answer w' → w' = w)
    (hpermitted : ∀ w, P w → Permitted policy w () (.ask question)) (hR : ∀ w, P w → R w) :
    Spec policy P (OutputWatch.ask question) (fun _ => P) R := by
  refine ask hpermitted fun w answer w' hw h _ => ?_
  obtain rfl := hdoes w answer w' h
  cases answer with
  | ok b => exact hw
  | error e => exact hR w' hw

theorem call {question : Ask τ} {Q : Unit → Markers τ → Prop}
    (h : Spec policy P (OutputWatch.ask question) (fun _ => Q ()) R) :
    Spec policy P (call question) Q R :=
  Triple.bind h fun _ => .pure fun _ hw => hw

theorem orDie {op : RefreshAct τ Bool} {Q : Unit → Markers τ → Prop} (h : Spec policy P op
      (fun b w => (b = true → Q () w) ∧ (b = false → R w)) R) :
    Spec policy P (orDie op) Q R := by
  refine .bind h fun ok => .ite (fun hok => .pure fun w hw => hw.1 hok) fun hok => ?_
  exact .raise fun w hw => hw.2 (Bool.eq_false_iff.2 hok)

theorem capture (hR : ∀ w, P w → R w) :
    Spec policy P captureCommand (fun _ => P) R := by
  intro s w hw
  refine ⟨trivial, fun answer w' hdoes => ?_⟩
  obtain rfl : w' = w := hdoes
  cases answer with
  | ok state => exact hw
  | error e => exact hR w' hw

theorem load (hR : ∀ w, P w → R w) : Spec policy P loadIdleTopology (fun _ => P) R := by
  intro s w hw
  refine ⟨trivial, fun answer w' hdoes => ?_⟩
  obtain rfl : w' = w := hdoes.1
  cases answer with
  | ok state => exact hw
  | error e => exact hR w' hw

end Spec

end Preseed.OutputWatch
