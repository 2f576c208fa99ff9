import Preseed.Copilots.Coordinator

/-!
# Llama and Whisper

A restoration is neither lost nor anticipated, in every interleaving of the coordinator's processes
and with a kill at any step.
-/

namespace Preseed.Copilots

open Concurrency

/-- Since the last stop by a run Whisper was found active again. -/
def Resumed : List Event → Prop
  | [] => False
  | .active :: _ => True
  | .stop true :: _ => False
  | .silent :: log | .wrote _ :: log | .stop false :: log | .start :: log | .allow _ :: log =>
    Resumed log

/-- No process holds the shared lease. -/
def Unleased (w : Memory) : Prop := ∀ q, (w.pc q).lease ≠ .shared

/-- What a control point says about the state file, the log and the lease. -/
def Assertion (w : Memory) : Pc → Prop
  | .runRead s | .runReady s => w.shared.restore = true → s.restore = true
  | .runIntent s | .runStopped s => w.shared.restore = true ∧ s.restore = true
  | .restoreRead s | .restoreExited s | .restoreStopped s | .restoreReady s |
    .restoreStarted s => w.shared = s
  | .restoreReleased s => w.shared = s ∧ Unleased w
  | .restoreDone s => w.shared = s ∧ (s.restore = true → Resumed w.log)
  | .allowedLeased s | .allowedExited s => s.restore = true
  | _ => True

/-- Process `p` shares admission with no other, nor an exclusive lease, and its assertion holds. -/
structure Good (w : Memory) (p : ℕ) : Prop where
  admission : (w.pc p).admitted = true → ∀ q, q ≠ p → (w.pc q).admitted = false
  exclusive : (w.pc p).lease = .exclusive → Alone w p
  assertion : Assertion w (w.pc p)

variable {w : Memory} {p : ℕ} {k : Pc} {s : State} {e : Event}

/-- An event that changes no restoration. -/
def Event.quiet : Event → Bool
  | silent | allow _ => true
  | wrote _ | stop _ | start | active => false

/-- What a step may acquire and change: admission from nobody, the exclusive lease from nobody, the
shared lease under admission, and the state file and Whisper only under admission. -/
theorem Step.effect (h : Step w p k s e) :
    (k.admitted = true → (w.pc p).admitted = true ∨ Vacant w) ∧
    (k.lease = .exclusive → (w.pc p).lease = .exclusive ∨ Alone w p) ∧
    (k.lease = .shared → (w.pc p).lease = .shared ∨
      (w.pc p).admitted = true ∧ ∀ q, q ≠ p → (w.pc q).lease ≠ .exclusive) ∧
    ((w.pc p).admitted = false → s = w.shared ∧ e.quiet = true) := by
  cases h
  case spawn h hk => rcases hk with rfl | rfl | rfl | rfl <;> simp [h, Pc.admitted, Pc.lease, Event.quiet]
  case closeRun h => rcases h with h | h | h <;> simp [h, Pc.admitted, Pc.lease, Event.quiet]
  all_goals simp_all [Pc.admitted, Pc.lease, Event.quiet]

theorem resumed_cons (h : e.quiet = true) (log : List Event) : Resumed (e :: log) ↔ Resumed log := by
  cases e <;> first | rfl | cases h

/-- A control point that is not admitted has no assertion about the others. -/
theorem assertion_of_not_admitted {w' : Memory} (hk : k.admitted = false)
    (h : Assertion w k) : Assertion w' k := by
  cases k <;> trivial

/-- A step of one process keeps the assertion of another that is admitted. -/
theorem assertion_other {k' : Pc} (hp : (w.pc p).admitted = false) (hstep : Step w p k s e)
    (h : Assertion w k') : Assertion (w.advance p k s e) k' := by
  obtain ⟨-, -, hshared, hquiet⟩ := hstep.effect
  obtain ⟨rfl, he⟩ := hquiet hp
  have hunleased : Unleased w → Unleased (w.advance p k w.shared e) := by
    intro hnone q
    by_cases hq : q = p
    · subst hq
      rw [World.advance_self]
      intro hlease
      rcases hshared hlease with hold | ⟨hadmitted, -⟩
      · exact hnone q hold
      · rw [hp] at hadmitted
        cases hadmitted
    · rw [w.advance_of_ne hq]
      exact hnone q
  cases k' <;> first | trivial | exact h | skip
  case restoreReleased => exact ⟨h.1, hunleased h.2⟩
  case restoreDone => exact ⟨h.1, fun hrestore => (resumed_cons he w.log).2 (h.2 hrestore)⟩

theorem good_other (h : ∀ q, Good w q) (hstep : Step w p k s e) {q : ℕ} (hq : q ≠ p) :
    Good (w.advance p k s e) q := by
  obtain ⟨hadmission, hexclusive, hshared, -⟩ := hstep.effect
  have hqp : (w.advance p k s e).pc q = w.pc q := w.advance_of_ne hq k s e
  refine ⟨?_, ?_, ?_⟩
  · rw [hqp]
    intro hadmitted r hr
    by_cases hrp : r = p
    · subst hrp
      rw [World.advance_self]
      by_contra hk
      rw [Bool.not_eq_false] at hk
      rcases hadmission hk with hold | hvacant
      · rw [(h q).admission hadmitted r hr] at hold
        cases hold
      · rw [hvacant q] at hadmitted
        cases hadmitted
    · rw [w.advance_of_ne hrp]
      exact (h q).admission hadmitted r hr
  · rw [hqp]
    intro hlease r hr
    by_cases hrp : r = p
    · subst hrp
      rw [World.advance_self]
      have hnone := (h q).exclusive hlease r hr
      cases hk : k.lease with
      | none => rfl
      | exclusive =>
        rcases hexclusive hk with hold | halone
        · rw [hnone] at hold
          cases hold
        · rw [halone q hq] at hlease
          cases hlease
      | shared =>
        rcases hshared hk with hold | ⟨-, hother⟩
        · rw [hnone] at hold
          cases hold
        · exact (hother q hq hlease).elim
    · rw [w.advance_of_ne hrp]
      exact (h q).exclusive hlease r hr
  · rw [hqp]
    cases hadmitted : (w.pc q).admitted with
    | false => exact assertion_of_not_admitted hadmitted (h q).assertion
    | true => exact assertion_other ((h q).admission hadmitted p hq.symm) hstep (h q).assertion

theorem assertion_own (h : Good w p) (hstep : Step w p k s e) :
    Assertion (w.advance p k s e) k := by
  have hassertion := h.assertion
  cases hstep
  case spawn hpc hk => rcases hk with rfl | rfl | rfl | rfl <;> trivial
  case record => exact id
  case keep hpc =>
    rw [hpc] at hassertion
    exact hassertion
  case intend hs' =>
    subst hs'
    exact ⟨rfl, rfl⟩
  case stopRun hpc =>
    rw [hpc] at hassertion
    exact hassertion
  case stoppedRun hpc =>
    rw [hpc] at hassertion
    exact fun _ => hassertion.2
  case readRestore => exact rfl
  case exitedRestore hpc _ _ =>
    rw [hpc] at hassertion
    exact hassertion
  case stopRestore hpc _ =>
    rw [hpc] at hassertion
    exact hassertion
  case stoppedRestore hpc =>
    rw [hpc] at hassertion
    exact hassertion
  case skipRestore hpc _ =>
    rw [hpc] at hassertion
    exact hassertion
  case unlock s hpc =>
    rw [hpc] at hassertion
    refine ⟨hassertion, fun q => ?_⟩
    by_cases hq : q = p
    · subst hq
      rw [World.advance_self]
      exact Hold.noConfusion
    · rw [w.advance_of_ne hq, h.exclusive (by rw [hpc]; rfl) q hq]
      exact Hold.noConfusion
  case startRestore hpc _ =>
    rw [hpc] at hassertion
    exact hassertion.1
  case activeRestore hpc =>
    rw [hpc] at hassertion
    exact ⟨hassertion, fun _ => trivial⟩
  case plainRestore hpc hrestore =>
    rw [hpc] at hassertion
    refine ⟨hassertion.1, fun htrue => ?_⟩
    rw [hrestore] at htrue
    cases htrue
  case leaseAllowed hrestore _ => exact hrestore
  case exitedAllowed hpc _ =>
    rw [hpc] at hassertion
    exact hassertion
  all_goals trivial

theorem good_own (h : ∀ q, Good w q) (hstep : Step w p k s e) : Good (w.advance p k s e) p := by
  obtain ⟨hadmission, hexclusive, -⟩ := hstep.effect
  refine ⟨?_, ?_, ?_⟩
  · rw [World.advance_self]
    intro hk q hq
    rw [w.advance_of_ne hq]
    rcases hadmission hk with hold | hvacant
    · exact (h p).admission hold q hq
    · exact hvacant q
  · rw [World.advance_self]
    intro hk q hq
    rw [w.advance_of_ne hq]
    rcases hexclusive hk with hold | halone
    · exact (h p).exclusive hold q hq
    · exact halone q hq
  · rw [World.advance_self]
    exact assertion_own (h p) hstep

theorem good_of_reachable (hw : Reachable Step Memory.first w) (p : ℕ) : Good w p := by
  refine hw.annotated ?_ (fun _ _ _ _ _ h hstep => good_own h hstep)
    (fun _ _ _ _ _ h hstep _ hq => good_other h hstep hq) p
  exact fun q => ⟨fun h => (Bool.false_ne_true h).elim, fun h => Hold.noConfusion h, trivial⟩

/-- A Llama process holds the shared lease. -/
theorem no_llama (h : ∀ q, q ≠ p → (w.pc q).lease ≠ .shared) (hp : w.pc p ≠ .llama) (q : ℕ) :
    w.pc q ≠ .llama := by
  intro hq
  by_cases hqp : q = p
  · exact hp (hqp ▸ hq)
  · exact h q hqp (by rw [hq]; rfl)

/-- In every interleaving: a run stops Whisper only while the state file has the restore mark; the
mark is cleared only after Whisper was found active again since the last stop by a run; and Whisper
is started by `restore_once`, or let start by `whisper-allowed` after it read a state with the mark,
only while no Llama process is alive and no process holds the shared lease. -/
theorem restoration_arbitrated (hw : Reachable Step Memory.first w) (hstep : Step w p k s e) :
    (e = .stop true → w.shared.restore = true) ∧
    (w.shared.restore = true → s.restore = false → Resumed w.log) ∧
    (e = .start → (∀ q, w.pc q ≠ .llama) ∧ Unleased w) ∧
    (∀ read, e = .allow read → read.restore = true → (∀ q, w.pc q ≠ .llama) ∧ Unleased w) := by
  have hgood := good_of_reachable hw p
  have hassertion := hgood.assertion
  refine ⟨?_, ?_, ?_, ?_⟩
  · rintro rfl
    cases hstep with
    | stopRun hpc =>
      rw [hpc] at hassertion
      exact hassertion.1
  · intro hmark hclear
    cases hstep
    case intend hs' =>
      subst hs'
      cases hclear
    case writeRun hpc =>
      rw [hpc] at hassertion
      rw [hassertion hmark] at hclear
      cases hclear
    case clear hpc =>
      rw [hpc] at hassertion
      exact hassertion.2 (hassertion.1 ▸ hmark)
    all_goals
      rw [hmark] at hclear
      cases hclear
  · rintro rfl
    cases hstep with
    | startRestore hpc hrestore =>
      rw [hpc] at hassertion
      refine ⟨no_llama (fun q _ => hassertion.2 q) (by rw [hpc]; exact Pc.noConfusion),
        hassertion.2⟩
  · rintro read rfl hrestore
    cases hstep with
    | allowPlain hpc hplain =>
      rw [hrestore] at hplain
      cases hplain
    | allow hpc =>
      have halone := hgood.exclusive (by rw [hpc]; rfl)
      have hnone : ∀ q, q ≠ p → (w.pc q).lease ≠ .shared := by
        intro q hq
        rw [halone q hq]
        exact Hold.noConfusion
      refine ⟨no_llama hnone (by rw [hpc]; exact Pc.noConfusion), fun q => ?_⟩
      by_cases hq : q = p
      · rw [hq, hpc]
        exact Hold.noConfusion
      · exact hnone q hq

/-- Process 1 is a run that was admitted and is recorded in its local state. -/
theorem reachable_recorded : ∃ w, Reachable Step Memory.first w ∧ w.shared = .empty ∧
    w.pc 1 = .runRead ⟨[1], false, false⟩ ∧ ∀ q, q ≠ 1 → w.pc q = .unborn := by
  have hspawn := Reachable.start.step (Step.spawn (w := Memory.first) (p := 1) rfl (.inl rfl))
  have hadmit := hspawn.step (Step.admitRun (p := 1) rfl fun q => by
    by_cases hq : q = 1
    · subst hq
      rfl
    · rw [World.advance_of_ne _ hq]
      rfl)
  have hlease := hadmit.step (Step.leaseRun (p := 1) rfl fun q hq => by
    rw [World.advance_of_ne _ hq, World.advance_of_ne _ hq]
    exact Hold.noConfusion)
  have hrecord := hlease.step (Step.record (p := 1) rfl false (by decide))
  refine ⟨_, hrecord, rfl, rfl, fun q hq => ?_⟩
  rw [World.advance_of_ne _ hq, World.advance_of_ne _ hq, World.advance_of_ne _ hq,
    World.advance_of_ne _ hq]
  rfl

/-- A run that found memory enough becomes Llama without a mark, and `whisper-allowed` then lets
Whisper start beside it. -/
theorem allowed_beside_llama : ∃ w, Reachable Step Memory.first w ∧
    Step w 2 .leaving w.shared (.allow ⟨[1], false, false⟩) ∧ w.pc 1 = .llama ∧
      1 ∈ w.shared.pids ∧ ¬ Unleased w := by
  obtain ⟨w, hw, hshared, hpc, hunborn⟩ := reachable_recorded
  have hready := hw.step (Step.keep hpc)
  have hwritten := hready.step (Step.writeRun (World.advance_self ..))
  have hreleased := hwritten.step (Step.releaseRun (World.advance_self ..))
  have hexec := hreleased.step (Step.exec (World.advance_self ..))
  have hallowed := hexec.step (Step.spawn (p := 2) (k := .allowed) (by
    rw [World.advance_of_ne _ (by decide), World.advance_of_ne _ (by decide),
      World.advance_of_ne _ (by decide), World.advance_of_ne _ (by decide)]
    exact hunborn 2 (by decide)) (by simp))
  have hread := hallowed.step (Step.readAllowed (World.advance_self ..))
  refine ⟨_, hread, .allowPlain (World.advance_self ..) rfl, rfl, List.mem_singleton.2 rfl,
    fun hnone => hnone 1 rfl⟩

theorem restoration_arbitrated_stop : ∃ w s, Reachable Step Memory.first w ∧
    Step w 1 (.runStopped s) w.shared (.stop true) ∧ w.shared.restore = true := by
  obtain ⟨w, hw, -, hpc, -⟩ := reachable_recorded
  have hintend : Step w 1 (.runIntent ⟨[1, 7], false, true⟩) ⟨[1, 7], false, true⟩
      (.wrote ⟨[1, 7], false, true⟩) := .intend hpc 7 rfl
  have hpc' : (w.advance 1 (.runIntent ⟨[1, 7], false, true⟩) ⟨[1, 7], false, true⟩
      (.wrote ⟨[1, 7], false, true⟩)).pc 1 = .runIntent ⟨[1, 7], false, true⟩ :=
    World.advance_self ..
  have hstop := Step.stopRun hpc'
  exact ⟨_, _, hw.step hintend, hstop, (restoration_arbitrated (hw.step hintend) hstop).1 rfl⟩

end Preseed.Copilots
