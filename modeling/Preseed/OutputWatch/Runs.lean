import Preseed.OutputWatch.IdleDisplays

/-!
# Runs under the refresh lock

Runs follow each other, and each may be killed at any step.
-/

namespace Preseed.OutputWatch

open Effects

variable {τ : Type}

/-- A run of a mode begins; `--dpms-on` is a wake. -/
def Markers.begin (mode : Mode) (w : Markers τ) : Markers τ :=
  { w with wake := w.wake || mode = .dpmsOn, inactive := false, stuck := false }

/-- The marker files after any number of runs, the last of which may be under way or killed. -/
inductive Reaches (stale : Bool) : Markers τ → Prop
  | login {w : Markers τ} (hsnapshot : w.snapshot = none) (hrequest : w.request = false)
      (hpause : w.pause = false) : Reaches stale w
  | run {w w' : Markers τ} {policy : Option Bool} {depth : ℕ} {mode : Mode}
      {p : Program (Desktop τ) Unit (Except Fault Bool × Unit)} (before : Reaches stale w)
      (steps : Program.Steps (desktop stale) (w.begin mode) (runRefreshAction policy depth mode ())
        w' p) : Reaches stale w'

/-- No permitted step leaves a request beside a snapshot without a wake. -/
theorem requested_step {policy : Option Bool} (w : Markers τ) (s : Unit) (op : Step τ)
    (r : (Desktop τ).Res op) (w' : Markers τ) (hpermitted : Permitted policy w s op)
    (hstep : desktop false w s op r w') (hw : Requested w) : Requested w' := by
  cases op with
  | captureCommand =>
    obtain rfl : w' = w := hstep
    exact hw
  | loadIdleTopology =>
    obtain rfl : w' = w := hstep.1
    exact hw
  | ask question =>
    obtain ⟨hdoes, hfresh⟩ := hstep
    cases question with
    | publishSnapshot topology =>
      rcases hdoes with rfl | ⟨-, rfl⟩
      · intro hrequest
        cases (hfresh rfl topology rfl).symm.trans hrequest
      · exact hw
    | publishRequest =>
      rcases hdoes with rfl | ⟨-, rfl⟩
      · exact fun _ => hpermitted
      · exact hw
    | removeSnapshot =>
      rcases hdoes.2 with rfl | rfl
      · exact (requested_clear w).1
      · exact hw
    | removeRequest =>
      rcases hdoes.2 with rfl | rfl
      · exact (requested_clear w).2
      · exact hw
    | publishPause =>
      rcases hdoes with rfl | ⟨-, rfl⟩ <;> exact hw
    | removePause =>
      rcases hdoes with ⟨-, rfl⟩ | ⟨-, rfl⟩ <;> exact hw
    | sessionIsActive =>
      obtain ⟨active, -, rfl⟩ := hdoes
      exact hw
    | idleTopologyActive | restoreRequested | pauseExists =>
      obtain rfl := hdoes.2
      exact hw
    | findCommand command =>
      cases command with
      | systemctl =>
        obtain rfl : w' = w.tried r := hdoes
        exact hw
      | wlrRandr | wlopm =>
        obtain rfl : w' = w := hdoes
        exact hw
    | pauseIsOwn | startKanshi =>
      obtain rfl : w' = w.tried r := hdoes
      exact hw
    | hang => exact hdoes.elim
    | prepareDock | stopKanshi | isComplete _ | power _ | geometry | waitForOutputs
    | outputsExist | geometryMatches | waitForCommit | saveTopology | hasPlan | planIsCurrent
    | topologyChanged | refreshChrome | refreshDock =>
      obtain rfl : w' = w := hdoes
      exact hw

theorem requested_begin {w : Markers τ} (mode : Mode) (hw : Requested w) :
    Requested (w.begin mode) := fun hrequest hsome => by
  simp only [Markers.begin, hw hrequest hsome, Bool.true_or]

/-- A run from a state in which no request stands without a wake. -/
theorem safe_runRefreshAction (policy : Option Bool) (depth : ℕ) (mode : Mode) {w : Markers τ}
    (hw : Requested w) :
    (runRefreshAction policy depth mode ()).Safe (desktop false) (Permitted policy)
      (fun x w' => outcome (fun _ _ w => Requested w ∧ (mode ≠ .idleTopologyActive → Released w))
        (fun _ _ => Failed) x.1 x.2 w') (w.begin mode) := by
  refine spec_runRefreshAction depth mode () (w.begin mode) ⟨requested_begin mode hw, ?_⟩
  rintro rfl
  simp [Markers.begin]

/-- No request stands without a wake, wherever the runs are stopped. -/
theorem requested_reaches {w : Markers τ} (h : Reaches false w) : Requested w := by
  induction h with
  | login hsnapshot hrequest hpause =>
    intro hyes
    cases hrequest.symm.trans hyes
  | run before steps ih =>
    exact (safe_runRefreshAction _ _ _ ih).invariant requested_step steps (requested_begin _ ih)

section Working

/-- A desktop on which everything works; the geometry differs from the saved one. -/
def working (w : Markers Unit) (_ : Unit) :
    (op : Step Unit) → (Desktop Unit).Res op × Markers Unit
  | .captureCommand => (.ok (some ()), w)
  | .loadIdleTopology => (.ok w.snapshot, w)
  | .ask question => match question with
    | .sessionIsActive => (.ok true, { w with inactive := false })
    | .idleTopologyActive => (.ok w.snapshot.isSome, w)
    | .restoreRequested => (.ok w.request, w)
    | .pauseExists => (.ok w.pause, w)
    | .publishPause => (.ok true, { w with pause := true })
    | .removePause => (.ok true, { w with pause := false })
    | .publishSnapshot topology => (.ok true, { w with snapshot := some topology, wake := false })
    | .publishRequest => (.ok true, { w with request := true })
    | .removeSnapshot => (.ok true, { w with snapshot := none })
    | .removeRequest => (.ok true, { w with request := false })
    | .pauseIsOwn | .startKanshi | .findCommand .systemctl => (.ok true, w.tried (.ok true))
    | .geometryMatches => (.ok false, w)
    | _ => (.ok true, w)

/-- The steps such a desktop answers. -/
def answered (stale : Bool) (w : Markers Unit) (_ : Unit) : Step Unit → Bool
  | .ask .hang => false
  | .ask (.publishSnapshot _) => stale || !w.request
  | _ => true

theorem working_answers (stale : Bool) (w : Markers Unit) (s : Unit) (op : Step Unit)
    (h : answered stale w s op = true) :
    desktop stale w s op (working w s op).1 (working w s op).2 := by
  cases op with
  | captureCommand => rfl
  | loadIdleTopology => exact ⟨rfl, fun _ hsome => Except.ok.inj hsome⟩
  | ask question =>
    refine ⟨?_, ?_⟩
    · cases question with
      | hang => cases h
      | sessionIsActive => exact ⟨true, rfl, rfl⟩
      | publishPause | publishSnapshot _ | publishRequest => exact .inl rfl
      | removePause => exact .inl ⟨rfl, rfl⟩
      | removeSnapshot | removeRequest => exact ⟨⟨true, rfl⟩, .inl rfl⟩
      | idleTopologyActive | restoreRequested | pauseExists => exact ⟨rfl, rfl⟩
      | findCommand command => cases command <;> rfl
      | _ => rfl
    · rintro rfl topology rfl
      simpa [answered] using h

/-- The markers when a run is stopped after `n` steps. -/
def Markers.after (n : ℕ) (mode : Mode) (w : Markers Unit) : Markers Unit :=
  (Program.runFor working n (w.begin mode) (runRefreshAction (some false) 3 mode ())).1

theorem reaches_after {stale : Bool} {w : Markers Unit} (n : ℕ) (mode : Mode)
    (hw : Reaches stale w) (hanswered : Program.checkedFor working (answered stale) n
      (w.begin mode) (runRefreshAction (some false) 3 mode ()) = true) :
    Reaches stale (w.after n mode) :=
  .run hw (Program.Steps.of_checkedFor (working_answers stale) n _ _ hanswered)

/-- No idle snapshot, no request and no pause. -/
def quiet : Markers Unit := ⟨none, false, false, false, false, false⟩

/-- Displays go idle, and a wake is killed before it removes its request. -/
def killedWake : Markers Unit := (quiet.after 30 .dpmsOff).after 19 .dpmsOn

theorem reaches_killedWake (stale : Bool) : Reaches stale killedWake := by
  cases stale <;> exact reaches_after 19 .dpmsOn (reaches_after 30 .dpmsOff (.login rfl rfl rfl)
    rfl) rfl

theorem runs_killedWake :
    Program.Steps (desktop false) (killedWake.begin .refresh)
      (runRefreshAction (some false) 3 .refresh ())
      (Program.runFor working 30 (killedWake.begin .refresh)
        (runRefreshAction (some false) 3 .refresh ())).1 (.done (.ok false, ())) :=
  Program.Steps.of_checkedFor (working_answers false) 30 _ _ rfl

/-- In every run: a snapshot is written only where there is none; under a snapshot the geometry
changes only after a wake; where Kanshi is configured, outputs change only under the pause marker;
and a run that ends without a snapshot, in an active session, leaves no pause marker, unless it
failed and could not remove the marker or start Kanshi. -/
theorem displays_stay_idle {w w' : Markers τ} (hw : Reaches false w) (policy : Option Bool)
    (depth : ℕ) (mode : Mode) {p : Program (Desktop τ) Unit (Except Fault Bool × Unit)}
    (hrun : Program.Steps (desktop false) (w.begin mode) (runRefreshAction policy depth mode ())
      w' p) :
    (∀ op, p.issued? = some ((), op) →
      (∀ topology, op = .ask (.publishSnapshot topology) → w'.snapshot = none) ∧
      (op = .ask .geometry → w'.snapshot.isSome = true → w'.wake = true) ∧
      (policy = some true → op = .ask .geometry ∨ (∃ on, op = .ask (.power on)) →
        w'.pause = true)) ∧
    ∀ outcome, p.result? = some (outcome, ()) → mode ≠ .idleTopologyActive →
      w'.snapshot = none → w'.inactive = false →
        w'.pause = false ∨ w'.stuck = true ∧ outcome = .error .died := by
  have hsafe := safe_runRefreshAction policy depth mode (requested_reaches hw)
  refine ⟨fun op hissued => ?_, fun outcome hresult hmode hnone hactive => ?_⟩
  · have hpermitted := hsafe.guard hrun hissued
    refine ⟨?_, ?_, ?_⟩
    · rintro topology rfl
      exact hpermitted
    · rintro rfl
      exact hpermitted.1
    · rintro hyes (rfl | ⟨on, rfl⟩)
      · exact hpermitted.2 hyes
      · exact hpermitted hyes
  · obtain rfl := Program.eq_done_of_result? hresult
    have hreleased : Released w' → w'.pause = false := by
      rintro (hsome | hinactive | hpause)
      · rw [hnone] at hsome
        cases hsome
      · cases hactive.symm.trans hinactive
      · exact hpause
    have hpost := hsafe.result hrun
    cases outcome with
    | ok result => exact .inl (hreleased (hpost.2 hmode))
    | error e =>
      cases e
      exact hpost.2.imp hreleased fun hstuck => ⟨hstuck, rfl⟩

/-- After a killed wake the refresh leaves no pause marker. -/
theorem displays_stay_idle_killed :
    (killedWake.after 30 .refresh).pause = false ∨
      (killedWake.after 30 .refresh).stuck = true ∧
        (.ok false : Except Fault Bool) = .error .died :=
  (displays_stay_idle (reaches_killedWake false) (some false) 3 .refresh runs_killedWake).2
    (.ok false) rfl (by decide) rfl rfl

/-- Displays go idle again while the request of a killed wake is still there. -/
def idleAgain : Markers Unit := killedWake.after 30 .dpmsOff

theorem reaches_idleAgain : Reaches true idleAgain :=
  reaches_after 30 .dpmsOff (reaches_killedWake true) rfl

/-- The request that a killed wake left over restores displays that went idle after it. -/
theorem restored_without_wake : ¬∀ (w w' : Markers Unit) (policy : Option Bool) (depth : ℕ)
    (mode : Mode) (p : Program (Desktop Unit) Unit (Except Fault Bool × Unit)),
    Reaches true w →
    Program.Steps (desktop true) (w.begin mode) (runRefreshAction policy depth mode ()) w' p →
    p.issued? = some ((), .ask .geometry) → w'.snapshot.isSome = true → w'.wake = true := by
  intro hclaim
  have hrun := Program.Steps.of_checkedFor (working_answers true) 14 (idleAgain.begin .refresh)
    (runRefreshAction (some false) 3 .refresh ()) rfl
  exact Bool.noConfusion (hclaim _ _ _ _ _ _ reaches_idleAgain hrun rfl rfl)

end Working

end Preseed.OutputWatch
