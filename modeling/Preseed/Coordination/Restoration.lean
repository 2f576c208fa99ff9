import Mathlib
import Preseed.Coordination.Exclusion

/-!
# The restoration of Tailscale

The record of a restoration that is owed stays until Tailscale has been started, or the
unit is gone, or an exclusion did not find Tailscale running.
-/

namespace Preseed.Coordination

/-- The step removes the active marker after a restoration has confirmed its start and
before its last section. -/
def Races (s t : System) : Prop :=
  s.mullvadActive = true ∧ t.mullvadActive = false ∧ ∃ p leaving, s.pc p = .finishing leaving

/-- A run in which no removal of the active marker races with a restoration. -/
inductive CalmRun : System → System → Prop
  | refl (s : System) : CalmRun s s
  | step {s t u : System} (run : CalmRun s t) (event : Event) (h : t.step event = some u)
      (calm : ¬ Races t u) : CalmRun s u

variable {t s : System}

theorem CalmRun.run (h : CalmRun s t) : Run s t := by
  induction h with
  | refl => exact .refl _
  | step _ event hstep _ ih => exact ih.step event hstep

/-- A restoration that is owed is recorded. -/
structure Kept (s : System) : Prop where
  settled : s.unit.up = true → s.owed = false
  void : s.available = false → s.owed = false
  recorded : ∀ p, s.pc p = .stopping ∨ s.pc p = .verifying → s.restoreTailscale = true
  /-- A start that has been confirmed is undone by an exclusion that is still in force. -/
  confirmed : ∀ p leaving, s.pc p = .finishing leaving → s.owed = true → s.mullvadActive = true
  kept : s.owed = true → s.restoreTailscale = true ∨ s.dropped = true

/-- A step of one process, which owes nothing new without a record and drops nothing that
is owed without a note. -/
theorem Kept.update (h : Kept s) (p : ℕ) (hunit : t.unit.up = true → s.unit.up = true)
    (havailable : t.available = s.available) (howed : t.owed = true → s.owed = true ∨
      (t.unit.up = false ∧ t.available = true ∧ t.mullvadActive = true ∧
        t.restoreTailscale = true))
    (hrestore : s.restoreTailscale = true → t.restoreTailscale = true ∨
      ((s.owed = true → t.dropped = true) ∧ ∀ q, q ≠ p → (s.pc q).holdsLock = false))
    (hdropped : s.dropped = true → t.dropped = true)
    (hmarked : s.mullvadActive = true → t.mullvadActive = true ∨
      ∀ q leaving, s.pc q ≠ .finishing leaving) (hpc : ∀ q, q ≠ p → t.pc q = s.pc q)
    (hstopping : t.pc p = .stopping ∨ t.pc p = .verifying → t.restoreTailscale = true)
    (hfinishing : ∀ leaving, t.pc p = .finishing leaving → t.owed = false) : Kept t := by
  constructor
  · intro hup
    by_contra howes
    rcases howed (by simpa using howes) with hs | ⟨hnot, -, -, -⟩
    · rw [h.settled (hunit hup)] at hs
      cases hs
    · rw [hup] at hnot
      cases hnot
  · intro hgone
    by_contra howes
    rcases howed (by simpa using howes) with hs | ⟨-, hthere, -, -⟩
    · rw [h.void (havailable ▸ hgone)] at hs
      cases hs
    · rw [hgone] at hthere
      cases hthere
  · intro q hq
    by_cases hsame : q = p
    · exact hstopping (hsame ▸ hq)
    · rw [hpc q hsame] at hq
      rcases hrestore (h.recorded q hq) with hkept | ⟨-, hfree⟩
      · exact hkept
      · have hholds := hfree q hsame
        rcases hq with hq | hq <;> rw [hq] at hholds <;> cases hholds
  · intro q leaving hq howes
    by_cases hsame : q = p
    · subst hsame
      rw [hfinishing leaving hq] at howes
      cases howes
    · rw [hpc q hsame] at hq
      rcases howed howes with hs | ⟨-, -, hactive, -⟩
      · rcases hmarked (h.confirmed q leaving hq hs) with hactive | hnone
        · exact hactive
        · exact absurd hq (hnone q leaving)
      · exact hactive
  · intro howes
    rcases howed howes with hs | ⟨-, -, -, hrecorded⟩
    · rcases h.kept hs with hrecorded | hnoted
      · rcases hrestore hrecorded with hkept | ⟨hnote, -⟩
        · exact .inl hkept
        · exact .inr (hnote hs)
      · exact .inr (hdropped hnoted)
    · exact .inl hrecorded

/-- A step that moves one process and leaves the records. -/
theorem Kept.move (h : Kept s) (p : ℕ) (hunit : t.unit.up = true → s.unit.up = true)
    (havailable : t.available = s.available) (howed : t.owed = s.owed)
    (hrestore : t.restoreTailscale = s.restoreTailscale) (hdropped : t.dropped = s.dropped)
    (hmarked : s.mullvadActive = true → t.mullvadActive = true) (hpc : ∀ q, q ≠ p → t.pc q = s.pc q)
    (hp : (t.pc p ≠ .stopping ∧ t.pc p ≠ .verifying ∧ ∀ leaving, t.pc p ≠ .finishing leaving)) :
    Kept t := by
  refine h.update p hunit havailable (fun h => .inl (howed ▸ h)) (fun h => .inl (hrestore ▸ h))
    (fun h => hdropped ▸ h) (fun h => .inl (hmarked h)) hpc ?_ ?_
  · rintro (hstopping | hverifying)
    · exact absurd hstopping hp.1
    · exact absurd hverifying hp.2.1
  · intro leaving hfinishing
    exact absurd hfinishing (hp.2.2 leaving)

/-- The lock is with one process. -/
theorem Locked.free (h : Locked s) {p : ℕ} (hp : (s.pc p).holdsLock = true) :
    ∀ q, q ≠ p → (s.pc q).holdsLock = false := by
  intro q hne
  by_contra hholds
  have hq := h.held q (by simpa using hholds)
  rw [h.held p hp] at hq
  exact hne (Option.some.inj hq).symm

theorem Locked.unlocked (h : Locked s) (hlock : s.lock = none) (q : ℕ) :
    (s.pc q).holdsLock = false := by
  by_contra hholds
  have hq := h.held q (by simpa using hholds)
  rw [hlock] at hq
  cases hq

/-- A calm step that removes the active marker. -/
theorem marked_of_calm (hcalm : ¬ Races s t) (hremoved : t.mullvadActive = false)
    (hmarked : s.mullvadActive = true) : ∀ q leaving, s.pc q ≠ .finishing leaving :=
  fun q leaving hq => hcalm ⟨hmarked, hremoved, q, leaving, hq⟩

/-- A stop command, after the record. -/
theorem Kept.stop (h : Kept s) (hlocked : Locked s) {p : ℕ} (hp : s.pc p = .stopping)
    (hunit : t.unit.up = false) (havailable : t.available = s.available)
    (howed : t.owed = (s.owed || (!s.unit.down && s.available)))
    (hrestore : t.restoreTailscale = s.restoreTailscale) (hdropped : t.dropped = s.dropped)
    (hactive : t.mullvadActive = s.mullvadActive) (hpc : ∀ q, q ≠ p → t.pc q = s.pc q)
    (hfinishing : ∀ leaving, t.pc p ≠ .finishing leaving) : Kept t := by
  have hmarked := hlocked.marked p (by rw [hp]; rfl)
  have hrecorded := h.recorded p (.inl hp)
  refine h.update p (by simp [hunit]) havailable ?_ (fun _ => .inl (hrestore ▸ hrecorded))
    (fun hs => hdropped ▸ hs) (fun _ => .inl (hactive ▸ hmarked)) hpc
    (fun _ => hrestore ▸ hrecorded) (fun leaving heq => absurd heq (hfinishing leaving))
  intro howes
  rw [howed, Bool.or_eq_true, Bool.and_eq_true] at howes
  rcases howes with hs | ⟨-, hthere⟩
  · exact .inl hs
  · exact .inr ⟨hunit, havailable ▸ hthere, hactive ▸ hmarked, hrestore ▸ hrecorded⟩

theorem up_of_down {unit : UnitState} (h : unit.down = true) : unit.up = false := by
  cases unit <;> first | rfl | cases h

theorem Kept.effect (h : Kept s) (hlocked : Locked s) {p : ℕ} (heffect : Effect s p t)
    (hcalm : ¬ Races s t) : Kept t := by
  cases heffect with
  | enter _ _ =>
    exact h.move p id rfl rfl rfl rfl (fun _ => rfl) (fun q hq => by simp [hq]) (by simp)
  | inspect _ _ => exact h.move p id rfl rfl rfl rfl id (fun q hq => by simp [hq]) (by simp)
  | record _ hrunning =>
    exact h.update p id rfl Or.inl (fun _ => .inl rfl) id Or.inl (fun q hq => by simp [hq])
      (fun _ => rfl) (by simp)
  | stop hpc unit hdown =>
    exact h.stop hlocked hpc (up_of_down hdown) rfl rfl rfl rfl rfl
      (fun q hq => by simp [hq, System.stopped]) (by simp)
  | absent hpc hgone =>
    refine h.update p id rfl Or.inl (fun _ => .inr ⟨?_, ?_⟩) id Or.inl
      (fun q hq => by simp [hq]) (by simp) (by simp)
    · intro howes
      rw [h.void hgone] at howes
      cases howes
    · exact hlocked.free (by rw [hpc]; rfl)
  | idle hpc hdown =>
    refine h.update p id rfl Or.inl ?_ ?_ Or.inl (fun q hq => by simp [hq, System.dropRestore])
      (by simp [System.dropRestore]) (by simp [System.dropRestore])
    · intro hrecorded
      exact .inr ⟨fun howes => by simp [System.dropRestore, howes, hrecorded],
        hlocked.free (by rw [hpc]; rfl)⟩
    · intro hnoted
      simp [System.dropRestore, hnoted]
  | verify _ _ => exact h.move p id rfl rfl rfl rfl id (fun q hq => by simp [hq]) (by simp)
  | fail _ _ =>
    exact h.move p id rfl rfl rfl rfl id (fun q hq => by simp [hq, System.fail])
      (by simp [System.fail])
  | stopFails hpc unit hunit =>
    refine h.stop hlocked hpc ?_ rfl rfl rfl rfl rfl
      (fun q hq => by simp [hq, System.stopped, System.fail]) (by simp [System.fail])
    rcases hunit with hdown | ⟨rfl, -⟩
    · exact up_of_down hdown
    · rfl
  | withdraw hpc hlock =>
    exact h.update p id rfl Or.inl Or.inl id
      (fun hmarked => .inr (marked_of_calm hcalm rfl hmarked))
      (fun q hq => by simp [hq, System.removeActive]) (by simp) (by simp)
  | withdrawDrop hpc hlock =>
    refine h.update p id rfl Or.inl ?_ ?_
      (fun hmarked => .inr (marked_of_calm hcalm rfl hmarked))
      (fun q hq => by simp [hq, System.removeActive, System.dropRestore])
      (by simp) (by simp)
    · intro hrecorded
      refine .inr ⟨fun howes => ?_, fun q _ => hlocked.unlocked hlock q⟩
      simp [System.dropRestore, System.removeActive, howes, hrecorded]
    · intro hnoted
      simp [System.dropRestore, System.removeActive, hnoted]
  | withdrawLate hpc hlock =>
    exact h.update p id rfl Or.inl Or.inl id
      (fun hmarked => .inr (marked_of_calm hcalm rfl hmarked))
      (fun q hq => by simp [hq, System.removeActive]) (by simp) (by simp)
  | leave hpc hlock =>
    exact h.update p id rfl Or.inl Or.inl id
      (fun hmarked => .inr (marked_of_calm hcalm rfl hmarked))
      (fun q hq => by simp [hq, System.removeActive]) (by simp) (by simp)
  | confirm leaving _ hup =>
    exact h.update p id rfl Or.inl Or.inl id Or.inl (fun q hq => by simp [hq]) (by simp)
      (fun _ _ => h.settled hup)
  | finish leaving hpc hlock hunmarked =>
    refine h.update p id rfl Or.inl (fun _ => .inr ⟨?_, fun q _ => hlocked.unlocked hlock q⟩) id
      Or.inl (fun q hq => by simp [hq]) (by simp [restored]) (by simp [restored])
    intro howes
    rw [h.confirmed p leaving hpc howes] at hunmarked
    cases hunmarked
  | defer hpc hlock hmarked =>
    refine h.update p id rfl ?_ (fun _ => .inl rfl) id Or.inl (fun q hq => by simp [hq])
      (fun _ => rfl) (by simp)
    intro howes
    rw [Bool.or_eq_true, decide_eq_true_eq] at howes
    rcases howes with hs | hcondition
    · exact .inl hs
    · refine .inr ⟨by simp [hcondition, UnitState.up], ?_, hmarked, rfl⟩
      by_contra hgone
      have hdown := hlocked.available (by simpa using hgone)
      rw [hcondition] at hdown
      cases hdown
  | allow _ _ _ => exact h.move p id rfl rfl rfl rfl id (fun q hq => by simp [hq]) (by simp)
  | other pc _ hplain =>
    refine h.move p id rfl rfl rfl rfl id (fun q hq => by simp [hq]) ?_
    simp only [at_pc, if_true]
    cases pc <;> first | (cases hplain; done) | simp

theorem Kept.step (h : Kept s) (hlocked : Locked s) {event : Event} (hstep : s.step event = some t)
    (hcalm : ¬ Races s t) : Kept t := by
  cases change_of_step hstep with
  | run p answer heffect => exact h.effect hlocked heffect hcalm
  | spawn p command hunused =>
    exact h.move p id rfl rfl rfl rfl id (fun q hq => by simp [hq])
      (by cases command <;> simp [Command.entry])
  | beginStart p hunused havailable =>
    exact h.move p (fun hup => by cases hup) rfl rfl rfl rfl id (fun q hq => by simp [hq]) (by simp)
  | allowed p hunit hpc =>
    exact ⟨fun hup => (by cases hup), h.void, h.recorded, h.confirmed, h.kept⟩
  | refused p hunit =>
    exact ⟨fun hup => (by cases hup), h.void, h.recorded, h.confirmed, h.kept⟩
  | unit next hmoves =>
    refine ⟨fun hup => ?_, fun hgone => ?_, h.recorded, fun p leaving hp howes => ?_,
      fun howes => ?_⟩
    · cases next with
      | active => exact Bool.and_false _
      | reloading =>
        -- only an active unit reloads
        have hactive : s.unit = .active := by
          cases hunit : s.unit <;> rw [hunit] at hmoves <;> first | rfl | cases hmoves
        simp [h.settled (by rw [hactive]; rfl)]
      | _ => cases hup
    · simp [h.void hgone]
    · exact h.confirmed p leaving hp (Bool.and_eq_true_iff.mp howes).1
    · obtain ⟨hs, hnext⟩ := Bool.and_eq_true_iff.mp howes
      rcases h.kept hs with hrecorded | hnoted
      · exact .inl hrecorded
      · exact .inr (Bool.and_eq_true_iff.mpr ⟨hnoted, hnext⟩)
  | load available hdown =>
    refine ⟨fun hup => ?_, fun hgone => ?_, h.recorded, fun p leaving hp howes => ?_,
      fun howes => ?_⟩
    · simp [h.settled hup]
    · exact Bool.and_eq_false_imp.mpr fun _ => hgone
    · exact h.confirmed p leaving hp (Bool.and_eq_true_iff.mp howes).1
    · obtain ⟨hs, hthere⟩ := Bool.and_eq_true_iff.mp howes
      rcases h.kept hs with hrecorded | hnoted
      · exact .inl hrecorded
      · exact .inr (Bool.and_eq_true_iff.mpr ⟨hnoted, hthere⟩)
  | kill p hrunning =>
    exact h.move p id rfl rfl rfl rfl id (fun q hq => by simp [hq]) (by simp)

/-- A state of a calm run in which the unit is running or not when no process has been
started. -/
def CalmlyReachable (s : System) : Prop :=
  ∃ available unit, (available = false → unit.down = true) ∧
    (∀ p, unit ≠ .condition p) ∧ CalmRun (.initial available unit) s

theorem CalmlyReachable.kept (h : CalmlyReachable s) : Kept s := by
  obtain ⟨available, unit, hdown, hcondition, hrun⟩ := h
  induction hrun with
  | refl =>
    exact ⟨fun _ => rfl, fun _ => rfl, fun _ hp => (nomatch hp), fun _ _ hp => (nomatch hp),
      fun howes => (nomatch howes)⟩
  | step run event hstep hcalm ih =>
    exact ih.step (Reachable.locked ⟨available, unit, hdown, hcondition, run.run⟩) hstep hcalm

/-- The process is an exclusion that finds Tailscale down, or that raised before it found
Tailscale running. -/
def Drops (s : System) (p : ℕ) : Prop :=
  (s.pc p = .inspecting ∧ s.unit.down = true) ∨ s.pc p = .failing false

/-- Only such an exclusion removes the record of a restoration that is owed. -/
theorem Kept.dropped_by (h : Kept s) {event : Event} (hstep : s.step event = some t)
    (howes : s.owed = true) (hrecorded : s.restoreTailscale = true)
    (hremoved : t.restoreTailscale = false) :
    ∃ p answer, event = .run p answer ∧ Drops s p := by
  have hkeeps : t.restoreTailscale = s.restoreTailscale → False := by
    intro heq
    rw [heq, hrecorded] at hremoved
    cases hremoved
  cases change_of_step hstep with
  | run p answer heffect =>
    refine ⟨p, answer, rfl, ?_⟩
    cases heffect with
    | absent hpc hgone =>
      rw [h.void hgone] at howes
      cases howes
    | idle hpc hdown => exact .inl ⟨hpc, hdown⟩
    | withdrawDrop hpc _ => exact .inr hpc
    | finish leaving hpc _ hunmarked =>
      rw [h.confirmed p leaving hpc howes] at hunmarked
      cases hunmarked
    | record _ _ => cases hremoved
    | defer _ _ _ => cases hremoved
    | _ => exact (hkeeps rfl).elim
  | _ => exact (hkeeps rfl).elim

/-- The record of a restoration that is owed stays, unless an exclusion that did not find
Tailscale running removes it. -/
theorem restoration_kept {s : System} (hs : CalmlyReachable s) (howes : s.owed = true) :
    (s.restoreTailscale = true ∨ s.dropped = true) ∧
    ∀ event t, s.step event = some t → s.restoreTailscale = true → t.restoreTailscale = false →
      ∃ p answer, event = .run p answer ∧ Drops s p :=
  ⟨hs.kept.kept howes, fun _ _ hstep hrecorded hremoved =>
    hs.kept.dropped_by hstep howes hrecorded hremoved⟩

theorem calm_of_unmarked (h : s.mullvadActive = false) : ¬ Races s t := by
  rintro ⟨hmarked, -, -⟩
  rw [h] at hmarked
  cases hmarked

theorem calm_of_marked (h : t.mullvadActive = true) : ¬ Races s t := by
  rintro ⟨-, hremoved, -⟩
  rw [h] at hremoved
  cases hremoved

/-- An exclusion stopped Tailscale, and its end is next. -/
def leaving : System :=
  ((System.initial true .active).steps [.spawn 0 .mullvadStart, .run 0 .ok, .run 0 .ok,
    .run 0 .ok, .run 0 .ok, .run 0 .ok, .spawn 1 .mullvadStop]).getD (.initial true .active)

theorem restoration_kept_leaving : leaving.restoreTailscale = true ∧
    ∀ event t, leaving.step event = some t → t.restoreTailscale = false →
      ∃ p answer, event = .run p answer ∧ Drops leaving p := by
  have hrun : CalmRun (.initial true .active) leaving :=
    (((((((CalmRun.refl _).step (.spawn 0 .mullvadStart) rfl (calm_of_unmarked rfl)).step
      (.run 0 .ok) rfl (calm_of_unmarked rfl)).step
      (.run 0 .ok) rfl (calm_of_marked rfl)).step
      (.run 0 .ok) rfl (calm_of_marked rfl)).step
      (.run 0 .ok) rfl (calm_of_marked rfl)).step
      (.run 0 .ok) rfl (calm_of_marked rfl)).step
      (.spawn 1 .mullvadStop) rfl (calm_of_marked rfl)
  obtain ⟨hkept, hdrops⟩ :=
    restoration_kept ⟨true, .active, by decide, fun _ => UnitState.noConfusion, hrun⟩ rfl
  refine ⟨hkept.resolve_right (by decide), fun event t hstep hremoved => ?_⟩
  exact hdrops event t hstep rfl hremoved

/-- A second exclusion finds Tailscale down, removes the record, and ends: Tailscale was
stopped by the first one and is not started again. -/
theorem second_exclusion_drops_restoration : ∃ s, Reachable s ∧ s.mullvadActive = false ∧
    (∀ p, s.pc p = .unused ∨ ∃ outcome, s.pc p = .finished outcome) ∧
    s.owed = true ∧ s.restoreTailscale = false := by
  refine ⟨_, ⟨true, .active, by decide, fun _ => UnitState.noConfusion, run_of_steps
    [.spawn 0 .mullvadStart, .run 0 .ok, .run 0 .ok, .run 0 .ok, .run 0 .ok, .run 0 .ok,
      .spawn 1 .mullvadStop, .run 1 .ok, .run 1 .ok, .run 1 .ok, .run 1 .fails,
      .spawn 2 .mullvadStart, .run 2 .ok, .run 2 .ok, .run 2 .ok,
      .spawn 3 .mullvadStop, .run 3 .ok, .run 3 .ok] rfl⟩, rfl, ?_, rfl, rfl⟩
  intro p
  match p with
  | 0 | 1 | 2 | 3 => exact Or.inr ⟨_, rfl⟩
  | p + 4 => exact Or.inl rfl

end Preseed.Coordination
