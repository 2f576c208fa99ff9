import Preseed.HardwareTuning.BrokerReconcile

/-!
# Starting, initializing and requests keep the invariant

These programs take the policy, and each of them first records a handback, so that
whatever fails in between leaves the invariant in order. Only a start of the broker
itself may skip this: then the policy must be found `Admissible`.
-/

namespace Preseed.HardwareTuning

open Effects

/-- A startup that does not take the policy itself, because a recovery is pending or because only
a non-Intel profile is selected, finds it owned as its selection needs it. -/
def Admissible (config : Config) (s : Broker) (w : World) : Prop :=
  s.policyRelease = none →
    s.recoveryPending ≠ ∅ ∨
      s.automatic = false ∧ s.anyManual config = true ∧ s.manual .intel = none →
    Owner config s w

/-- The postcondition of a program that is never cancelled. -/
def Raises {α : Type} (P R : Broker → World → Prop) : Except Failure α → Broker → World → Prop :=
  outcome (fun _ => P) fun e s w => e.isException = true ∧ R s w

section Requests

variable {config : Config} {owning : Prop} {locks journals within : List Vendor} {s : Broker}
  {w : World} {vendor : Vendor} {P R : Broker → World → Prop}

theorem Ends.raises {α : Type} {x : Except Failure α} (h : Ends config False within P R x s w) :
    Raises P R x s w := by
  cases x with
  | ok a => exact h
  | error e =>
    cases he : e.isException with
    | true => exact ⟨he, h.1 he⟩
    | false => exact (h.2 he).1.elim

theorem Raises.always {α : Type} {x : Except Failure α} (h : Raises P P x s w) : P s w := by
  cases x with
  | ok a => exact h
  | error e => exact h.2

/-- The invariant without the ownership of the policy. -/
theorem Steady.forget (h : Steady config owning locks journals s w) :
    Steady config False locks journals s w :=
  ⟨h.recovered, h.interlocked, nofun⟩

/-- A new result of the policy helper leaves the invariant as it is. -/
theorem Sound.policyState (h : Sound config owning locks journals s w) (status : Option PolicyStatus) :
    Sound config owning locks journals { s with policyState := status } w :=
  ⟨⟨h.recovered, h.interlocked, h.owner⟩, h.synced⟩

/-- Losing a helper process leaves the invariant as it is. -/
theorem Sound.unknown (h : Sound config owning locks journals s w) (unknown : Bool) :
    Sound config owning locks journals { s with childOutcomeUnknown := unknown } w :=
  ⟨h.toSteady.unknown unknown, h.synced⟩

/-! ### Taking the policy -/

/-- The rule of a policy command that neither takes the policy nor gives it back. -/
theorem wp_policy_query {act : PolicyAction} {Q : Except Failure Unit → Broker → World → Prop}
    (htakes : act.takes = false) (hgives : act.givesBack = false)
    (hok : ∀ status, status.claimed = w.claimed →
      Q (.ok ()) { s with policyState := some status } w)
    (herr : ∀ e unknown, e.isException = true →
      Q (.error e) { s with childOutcomeUnknown := unknown } w) :
    wp (services False) (permitted config owning) (Broker.policy act) Q s w := by
  have hsame : ∀ {succeeds : Bool} {w' : World}, w.Policed act succeeds w' → w' = w := by
    intro succeeds w' h
    simpa [World.Policed, htakes, hgives] using h
  have hguard : permitted config owning w s (.policy act) := by
    intro h
    rw [hgives] at h
    cases h
  refine wp_policy hguard ?_ ?_
  · intro status w' hpoliced hclaimed
    cases hsame hpoliced
    exact hok status hclaimed
  · intro e unknown w' hw' hcancel
    have hw : w' = w := hw'.elim id hsame
    subst hw
    exact herr e unknown (by simpa using hcancel)

/-- The rule of a policy command that takes the policy. -/
theorem wp_policy_prepare {act : PolicyAction} {Q : Except Failure Unit → Broker → World → Prop}
    (htakes : act.takes = true)
    (hok : ∀ status, status.claimed = true →
      Q (.ok ()) { s with policyState := some status } { w with claimed := true, prepared := true })
    (herr : ∀ e unknown w', w'.journal = w.journal → w'.saveFailed = w.saveFailed →
      w'.durable = w.durable → e.isException = true →
      Q (.error e) { s with childOutcomeUnknown := unknown } w') :
    wp (services False) (permitted config owning) (Broker.policy act) Q s w := by
  have hguard : permitted config owning w s (.policy act) := by
    intro h
    cases act <;> cases htakes <;> cases h
  refine wp_policy hguard ?_ ?_
  · intro status w' hpoliced hclaimed
    simp only [World.Policed, htakes, if_true] at hpoliced
    obtain ⟨claimed, -, hdone, rfl⟩ := hpoliced
    cases hdone trivial
    simpa using hok status hclaimed
  · intro e unknown w' hw' hcancel
    rcases hw' with rfl | hpoliced
    · exact herr e unknown w' rfl rfl rfl (by simpa using hcancel)
    · obtain ⟨hjournal, hsaved, hdurable⟩ := hpoliced.frame
      exact herr e unknown w' hjournal hsaved hdurable (by simpa using hcancel)

/-- `Broker.stop_tuning`, which is never cancelled here. -/
theorem wp_stopTuning_raises {disable clearFaults : Bool} (hrecovered : Recovered config [] s w)
    (hlocked : Interlocked config (if clearFaults then config.vendors else []) s w) :
    wp (services False) (permitted config owning) (Broker.stopTuning config disable clearFaults)
      (Raises (Sound config owning [] []) (Sound config owning [] [])) s w :=
  wp_mono (wp_stopTuning hrecovered hlocked) fun _ _ _ => Ends.raises

/-- `Broker.reconcile`, which is never cancelled here. -/
theorem wp_reconcile_raises {health : Bool} (h : Sound config owning [] [] s w) :
    wp (services False) (permitted config owning) (Broker.reconcile config health)
      (Raises (Sound config owning [] []) (Sound config owning [] [])) s w :=
  wp_mono (wp_reconcile h) fun _ _ _ => Ends.raises

/-- Saving restores the invariant of the controls file. -/
theorem wp_save_raises (h : Steady config owning [] [] s w) :
    wp (services False) (permitted config owning) Broker.save
      (Raises (Sound config owning [] []) (Sound config owning [] [])) s w :=
  wp_mono (wp_save_steady [] h (fun _ hsound _ => hsound) fun _ _ hsound _ => hsound)
    fun _ _ _ => Ends.raises

/-- Giving up restores the invariant. -/
theorem wp_giveUp {disable : Bool} {exc : Failure} (h : Steady config False [] [] s w) :
    wp (services False) (permitted config owning) (Broker.giveUp config disable exc)
      (Raises (Sound config owning [] []) (Sound config owning [] [])) s w := by
  unfold Broker.giveUp
  rw [wp_bind]
  refine wp_mono (wp_stopTuning_raises h.recovered h.interlocked) ?_
  rintro (e | _) s' w' hstopped
  · exact hstopped
  · exact ⟨⟨hstopped.recovered, hstopped.interlocked, hstopped.owner⟩, hstopped.synced⟩

/-- Reconciling, and activating the autostart unit if automatic mode is still on. -/
theorem wp_reconcileActivate (h : Sound config owning [] [] s w) :
    wp (services False) (permitted config owning)
      (do Broker.reconcile config false
          let s ← Act.get
          Act.when s.automatic (Broker.policy .activate))
      (Raises (Sound config owning [] []) (Sound config owning [] [])) s w := by
  rw [wp_bind]
  refine wp_mono (wp_reconcile_raises h) ?_
  rintro (e | _) s' w' hreconciled
  · exact hreconciled
  · rw [outcome_ok, wp_bind, wp_get, outcome_ok, wp_when]
    refine ⟨fun _ => ?_, fun _ => hreconciled⟩
    exact wp_policy_query rfl rfl (fun status _ => hreconciled.policyState _)
      fun e unknown he => ⟨he, hreconciled.unknown unknown⟩

/-! ### Starting -/

/-- While a handback is to be done and saving has failed, faults may have been cleared. -/
private theorem Steady.sound_of_saveFailed (h : Steady config owning locks [] s w)
    (hfailed : w.saveFailed = true) (hrelease : s.policyRelease.isSome) :
    Sound config owning [] [] s w := by
  refine ⟨h.unlocked (fun v hv => (h.interlocked v hv).1) hfailed hrelease, fun hsaved => ?_⟩
  rw [hfailed] at hsaved
  cases hsaved

/-- The loop of `Broker.start_tuning`, after the faults have been cleared. -/
private theorem wp_clear_each (h : Sound config owning config.vendors [] s w)
    (hrelease : s.policyRelease.isSome) :
    wp (services False) (permitted config owning) (Act.forEach config.vendors Broker.recover)
      (Raises (fun s' w' => Sound config owning [] [] s' w' ∧ s'.policyRelease = s.policyRelease)
        (Sound config owning [] [])) s w := by
  refine wp_mono (wp_recover_each config.vendors config.vendors true false
    (by simpa using h.toSteady) (fun _ _ hv => hv) fun _ hv => hv) ?_
  rintro (e | _) s' w' hrestored
  · obtain ⟨he, hsteady, hsame, hfailed⟩ := hrestored.raises
    exact ⟨he, hsteady.sound_of_saveFailed hfailed (hsame.policyRelease ▸ hrelease)⟩
  · exact ⟨⟨hrestored.1, hrestored.2.synced h.synced⟩, hrestored.2.policyRelease⟩

/-- The `try` of `Broker.start_tuning`. -/
private theorem wp_takePolicy {boot : Bool} (h : Sound config owning [] [] s w)
    (hpending : s.recoveryPending = ∅) (hrelease : s.policyRelease.isSome) :
    wp (services False) (permitted config owning)
      (do Broker.policy (Broker.prepareAction boot)
          Act.modify fun s => { s with automatic := true, policyRelease := none }
          Broker.save
          Broker.reconcile config false
          let s ← Act.get
          Act.when s.automatic (Broker.policy .activate))
      (Raises (Sound config owning [] []) (Steady config False [] [])) s w := by
  rw [wp_bind]
  refine wp_policy_prepare (by cases boot <;> rfl) ?_ ?_
  · intro status hstatus
    rw [outcome_ok, wp_bind, wp_modify, outcome_ok, wp_bind]
    refine wp_mono (wp_save_raises ?_) ?_
    · refine ⟨h.recovered, fun v hv => ?_, fun _ _ => ⟨fun _ => ⟨rfl, rfl⟩, fun _ => rfl⟩⟩
      have hv' : v ∈ s.recoveryPending := hv
      simp [hpending] at hv'
    · rintro (e | _) s' w' hsaved
      · exact ⟨hsaved.1, hsaved.2.toSteady.forget⟩
      · refine wp_mono (wp_reconcileActivate hsaved) ?_
        rintro (e | _) s'' w'' hend
        · exact ⟨hend.1, hend.2.toSteady.forget⟩
        · exact hend
  · intro e unknown w' hjournal hsaved hdurable he
    refine ⟨he, (h.toSteady.policed ⟨hjournal, hsaved, hdurable⟩ rfl rfl rfl rfl
      fun _ hr => ?_).forget.unknown unknown⟩
    rw [hr] at hrelease
    cases hrelease

/-- `Broker.start_tuning` keeps the invariant. -/
theorem wp_startTuning {boot : Bool} (h : Sound config owning [] [] s w) :
    wp (services False) (permitted config owning) (Broker.startTuning config boot)
      (fun _ => Sound config owning [] []) s w := by
  unfold Broker.startTuning
  rw [wp_bind, wp_get, outcome_ok]
  split
  · exact h
  rw [wp_bind]
  refine wp_autostartEnabled fun oldBoot => ?_
  rw [outcome_ok]
  split
  · exact wp_policy_query rfl rfl (fun status _ => h.policyState _) fun e unknown _ => h.unknown unknown
  rw [wp_bind, wp_modify, outcome_ok, wp_bind, wp_modify, outcome_ok,
    wp_bind]
  refine wp_mono (wp_save_steady []
    (P := fun s' w' => Sound config owning config.vendors [] s' w' ∧ s'.policyRelease = some .stop)
    (R := Sound config owning [] [])
    ⟨h.recovered, fun v hv => ⟨(h.interlocked v hv).1, .inl (h.interlocked v hv).1⟩, by simp⟩
    (fun _ hsound _ => ⟨hsound, rfl⟩)
    fun _ _ hsound hw => hsound.toSteady.sound_of_saveFailed (by rw [hw]) rfl) ?_
  rintro (e | _) s₁ w₁ hsaved
  · exact hsaved.raises.2
  obtain ⟨hsound₁, hrelease₁⟩ := hsaved
  rw [outcome_ok, wp_bind]
  refine wp_mono (wp_clear_each hsound₁ (by simp [hrelease₁])) ?_
  rintro (e | _) s₂ w₂ hrestored
  · exact hrestored.2
  obtain ⟨hsound₂, hrelease₂⟩ := hrestored
  rw [outcome_ok, wp_bind, wp_get, outcome_ok, wp_when]
  refine ⟨fun hpending => ?_, fun _ => hsound₂⟩
  rw [wp_attempt]
  refine wp_mono (wp_takePolicy hsound₂ hpending (by simp [hrelease₂, hrelease₁])) ?_
  rintro (e | _) s₃ w₃ htaken
  · obtain ⟨he, hsteady⟩ := htaken
    refine ⟨fun _ => ?_, fun hnot => absurd (he ▸ hnot) (by simp)⟩
    rw [wp_bind]
    refine wp_mono (wp_giveUp hsteady) ?_
    rintro (e | _) s₄ w₄ hgiven
    · exact hgiven.2
    · exact wp_mono (wp_save_raises hgiven.toSteady) fun _ _ _ => Raises.always
  · exact htaken

/-! ### Initializing -/

/-- The first part of `Broker.initialize`, in a process that has just been started. -/
theorem wp_recoverAll {active : Bool} :
    wp (services False) (permitted config owning) (Broker.recoverAll config)
      (Raises (fun s' w' => Sound config False [] [] s' w' ∧ s'.held = false ∧
          s'.claimed = w'.claimed)
        (Interlocked config [])) (.initial active) w := by
  -- Until the loop every journal is excepted, and nothing waits for its recovery.
  have hstart : ∀ {s' : Broker} {w' : World}, s'.recoveryPending = ∅ → Synced s' w' →
      Sound config False [] config.vendors s' w' := by
    intro s' w' hpending hsynced
    refine ⟨⟨fun v hv _ => .inl hv, fun v hv => ?_, nofun⟩, hsynced⟩
    rw [hpending] at hv
    simp at hv
  have hloop : ∀ {s' : Broker} {w' : World}, Sound config False [] config.vendors s' w' →
      s'.held = false → s'.claimed = w'.claimed →
      wp (services False) (permitted config owning) (Act.forEach config.vendors Broker.recover)
        (Raises (fun s' w' => Sound config False [] [] s' w' ∧ s'.held = false ∧
            s'.claimed = w'.claimed)
          (Interlocked config [])) s' w' := by
    intro s' w' hsound hheld hclaimed
    refine wp_mono (wp_recover_each [] config.vendors false true (by simpa using hsound.toSteady)
      nofun fun _ hv => hv) ?_
    rintro (e | _) s'' w'' hend
    · obtain ⟨he, hsteady, -⟩ := hend.raises
      exact ⟨he, by simpa using hsteady.interlocked⟩
    · obtain ⟨hsteady, hsame⟩ := hend
      refine ⟨⟨hsteady, hsame.synced hsound.synced⟩, ?_, ?_⟩
      · rw [← hheld]
        simp [Selection.held, hsame.powerHolds]
      · rw [hsame.claimed, ← hclaimed, Broker.claimed, Broker.claimed, hsame.policyState]
  have hquery : ∀ {s' : Broker} {w' : World} {recovered : Bool},
      s'.recoveryPending = ∅ → s'.held = false → Synced s' w' →
      wp (services False) (permitted config owning)
        (do Broker.policy .status
            Act.when (recovered = false) (do
              let automatic ← Broker.autostartEnabled
              Act.modify fun s => { s with automatic := automatic })
            Act.forEach config.vendors Broker.recover)
        (Raises (fun s' w' => Sound config False [] [] s' w' ∧ s'.held = false ∧
            s'.claimed = w'.claimed)
          (Interlocked config [])) s' w' := by
    intro s' w' recovered hpending hheld hsynced
    rw [wp_bind]
    refine wp_policy_query rfl rfl (fun status hclaimed => ?_) fun e unknown he =>
      ⟨he, ((hstart hpending hsynced).unknown unknown).interlocked⟩
    rw [outcome_ok, wp_bind, wp_when]
    refine ⟨fun _ => ?_, fun _ => hloop (hstart hpending hsynced) hheld hclaimed⟩
    rw [wp_bind]
    exact wp_autostartEnabled fun enabled => hloop (hstart hpending hsynced) hheld hclaimed
  unfold Broker.recoverAll
  rw [wp_bind]
  refine wp_load (fun hdurable => ?_) (fun data seat hdurable => ?_) fun e he => ?_
  · exact hquery rfl rfl fun _ => by simp [World.savedRelease, hdurable, Broker.initial]
  · exact hquery rfl rfl fun _ => by simp [World.savedRelease, hdurable, Broker.loaded]
  · exact ⟨he, fun v hv => by simp [Broker.initial] at hv⟩

section

variable (h : Sound config False [] [] s w)
include h

/-- The invariant once the policy has been taken. -/
private theorem Sound.prepared (status : PolicyStatus) :
    Sound config owning [] [] { s with policyState := some status }
      { w with claimed := true, prepared := true } :=
  ⟨⟨h.recovered, h.interlocked, fun _ _ => ⟨fun _ => ⟨rfl, rfl⟩, fun _ => rfl⟩⟩, h.synced⟩

/-- The invariant after a policy command that takes the policy and fails. -/
private theorem Sound.unprepared {w' : World}
    (hjournal : w'.journal = w.journal) (hsaved : w'.saveFailed = w.saveFailed)
    (hdurable : w'.durable = w.durable) (unknown : Bool) :
    Steady config False [] [] { s with childOutcomeUnknown := unknown } w' :=
  (h.toSteady.policed ⟨hjournal, hsaved, hdurable⟩ rfl rfl rfl rfl nofun).unknown unknown

/-- A startup in automatic mode establishes the invariant. -/
private theorem wp_resumeAutomatic :
    wp (services False) (permitted config owning) (Broker.resumeAutomatic config)
      (Raises (Sound config owning [] []) (Sound config owning [] [])) s w := by
  unfold Broker.resumeAutomatic
  rw [wp_attempt, wp_bind]
  refine wp_autostartEnabled fun boot => ?_
  rw [outcome_ok, wp_bind]
  refine wp_policy_prepare (by cases boot <;> rfl) (fun status _ => ?_) ?_
  · refine wp_mono (wp_reconcileActivate (h.prepared status)) ?_
    rintro (e | _) s' w' hend
    · exact ⟨fun _ => wp_giveUp hend.2.toSteady.forget, fun he => absurd (he ▸ hend.1) nofun⟩
    · exact hend
  · intro e unknown w' hjournal hsaved hdurable he
    exact ⟨fun _ => wp_giveUp (h.unprepared hjournal hsaved hdurable unknown),
      fun hnot => absurd (he ▸ hnot) nofun⟩

/-- A startup in manual mode establishes the invariant, if the policy is owned as a selection
without Intel needs it. -/
private theorem wp_resumeManual
    (hadmissible : owning → s.manual .intel = none → Owner config s w) :
    wp (services False) (permitted config owning) (Broker.resumeManual config)
      (outcome (fun _ => Sound config owning [] []) fun _ => Interlocked config []) s w := by
  have hreconcile : ∀ {s' : Broker} {w' : World}, Sound config owning [] [] s' w' →
      wp (services False) (permitted config owning) (Broker.reconcile config false)
        (outcome (fun _ => Sound config owning [] []) fun _ => Interlocked config []) s' w' := by
    intro s' w' hsound
    refine wp_mono (wp_reconcile_raises hsound) ?_
    rintro (e | _) s'' w'' hend
    · exact hend.2.interlocked
    · exact hend
  unfold Broker.resumeManual
  rw [wp_bind, wp_get, outcome_ok, wp_bind, wp_when]
  refine ⟨fun _ => ?_, fun hnone => ?_⟩
  · exact wp_policy_prepare rfl (fun status _ => hreconcile (h.prepared status))
      fun e unknown w' hjournal hsaved hdurable _ =>
        (h.unprepared hjournal hsaved hdurable unknown).interlocked
  · exact hreconcile ⟨⟨h.recovered, h.interlocked, fun ho _ => hadmissible ho (by simpa using hnone)⟩,
      h.synced⟩

/-- The second part of `Broker.initialize` establishes the invariant, if the startup is
admissible. -/
theorem wp_settle (hheld : s.held = false)
    (hclaimed : s.claimed = w.claimed) (hadmissible : owning → Admissible config s w) :
    wp (services False) (permitted config owning) (Broker.settle config)
      (outcome (fun _ => Sound config owning [] []) fun _ => Interlocked config []) s w := by
  have hsave : ∀ {s' : Broker} {w' : World}, Sound config owning [] [] s' w' →
      wp (services False) (permitted config owning) Broker.save
        (outcome (fun _ => Sound config owning [] []) fun _ => Interlocked config []) s' w' := by
    intro s' w' hsound
    refine wp_mono (wp_save_raises hsound.toSteady) ?_
    rintro (e | _) s'' w'' hend
    · exact hend.2.interlocked
    · exact hend
  have hthen : ∀ {m : BrokerAct Unit} {s' : Broker} {w' : World},
      wp (services False) (permitted config owning) m
        (Raises (Sound config owning [] []) (Sound config owning [] [])) s' w' →
      wp (services False) (permitted config owning) (do m; Broker.save)
        (outcome (fun _ => Sound config owning [] []) fun _ => Interlocked config []) s' w' := by
    intro m s' w' hm
    rw [wp_bind]
    refine wp_mono hm ?_
    rintro (e | _) s'' w'' hend
    · exact hend.2.interlocked
    · exact hsave hend
  unfold Broker.settle
  rw [wp_bind, wp_get, outcome_ok]
  cases hrelease : s.policyRelease with
  | some release => exact hthen (wp_stopTuning_raises h.recovered h.interlocked)
  | none =>
    have hsound : (owning → Owner config s w) → Sound config owning [] [] s w := fun howner =>
      ⟨⟨h.recovered, h.interlocked, fun ho _ => howner ho⟩, h.synced⟩
    by_cases hpending : s.recoveryPending = ∅
    · simp only [hpending, Act.when, if_true]
      cases hautomatic : s.automatic with
      | true => exact hthen (wp_resumeAutomatic h)
      | false =>
        cases hmanual : s.anyManual config with
        | true =>
          simp only [Bool.false_eq_true, if_false, if_true]
          rw [wp_bind]
          refine wp_mono (wp_resumeManual h fun ho hintel =>
            hadmissible ho hrelease (.inr ⟨hautomatic, hmanual, hintel⟩)) ?_
          rintro (e | _) s' w' hend
          · exact hend
          · exact hsave hend
        | false =>
          simp only [Bool.false_eq_true, if_false]
          split
          · exact hthen (wp_stopTuning_raises h.recovered h.interlocked)
          · rename_i hfree
            -- Nothing asks for the policy, and it is not claimed.
            refine hsave (hsound fun _ => ⟨?_, fun hc => absurd (hclaimed.trans hc) hfree⟩)
            rintro (hasks | ⟨hin, hasks⟩ | hasks)
            · rw [hautomatic] at hasks
              cases hasks
            · exact absurd hasks (by simpa using List.any_eq_false.mp hmanual .intel hin)
            · rw [hheld] at hasks
              cases hasks
    · simp only [hpending, Act.when, if_false]
      exact hsave (hsound fun ho => hadmissible ho hrelease (.inl hpending))

end

/-! ### Requests -/

/-- The policy has been taken, and no recovery is pending. -/
structure Acquired (config : Config) (owning : Prop) (s : Broker) (w : World) : Prop extends
    Steady config owning [] [] s w where
  idle : s.recoveryPending = ∅
  free : s.policyRelease = none
  owned : owning → w.claimed = true ∧ w.prepared = true

/-- Restoring every vendor leaves no recovery pending, or it raises. -/
private theorem wp_restore_each (h : Steady config owning [] [] s w) :
    wp (services False) (permitted config owning) (Act.forEach config.vendors Broker.restore)
      (Raises (fun s' w' => Steady config owning [] [] s' w' ∧ s'.recoveryPending = ∅ ∧
          s'.policyRelease = s.policyRelease)
        (Steady config False [] [])) s w := by
  refine wp_forEach (fun rest s' w' => Steady config owning [] [] s' w' ∧
      (∀ v ∈ s'.recoveryPending, v ∈ rest) ∧ s'.policyRelease = s.policyRelease)
    ⟨h, fun v hv => (h.interlocked v hv).1, rfl⟩ ?_ ?_
  · rintro vendor rest s' w' ⟨hsteady, hpending, hsame⟩
    refine wp_restore ⟨(hsteady.mono nofun nofun).restored, fun v hv => ?_, hsame⟩
      fun e unknown owned hkept hcancel => ?_
    · obtain ⟨hne, hin⟩ := Finset.mem_erase.mp hv
      simpa [hne] using hpending v hin
    · exact ⟨by simpa using hcancel, ((hsteady.withJournal hkept).unknown unknown).forget⟩
  · rintro s' w' ⟨hsteady, hpending, hsame⟩
    exact ⟨hsteady, Finset.eq_empty_of_forall_notMem fun v hv => by simpa using hpending v hv, hsame⟩

/-- Taking the policy for a request, or raising while the handback is still recorded. -/
theorem wp_acquire (h : Steady config owning [] [] s w) (hrelease : s.policyRelease.isSome) :
    wp (services False) (permitted config owning) (Broker.acquire config)
      (Raises (Acquired config owning) (Steady config False [] [])) s w := by
  unfold Broker.acquire
  rw [wp_bind]
  refine wp_mono (wp_restore_each h) ?_
  rintro (e | _) s' w' hrestored
  · exact hrestored
  obtain ⟨hsteady, hpending, hsame⟩ := hrestored
  rw [outcome_ok, wp_bind]
  refine wp_policy_prepare rfl (fun status _ => ?_) ?_
  · refine ⟨⟨hsteady.recovered, fun v hv => ?_, fun _ _ => ⟨fun _ => ⟨rfl, rfl⟩, fun _ => rfl⟩⟩,
      hpending, rfl, fun _ => ⟨rfl, rfl⟩⟩
    have hv' : v ∈ s'.recoveryPending := hv
    simp [hpending] at hv'
  · intro e unknown w'' hjournal hsaved hdurable he
    refine ⟨he, (hsteady.policed ⟨hjournal, hsaved, hdurable⟩ rfl rfl rfl rfl
      fun _ hr => ?_).forget.unknown unknown⟩
    rw [← hsame, hr] at hrelease
    cases hrelease

/-- Saving what has been acquired. -/
private theorem wp_save_acquired (h : Acquired config owning s w) :
    wp (services False) (permitted config owning) Broker.save
      (Raises (fun s' w' => Acquired config owning s' w' ∧ Synced s' w')
        (Sound config owning [] [])) s w := by
  refine wp_mono (wp_save_steady []
    (P := fun s' w' => Acquired config owning s' w' ∧ Synced s' w')
    (R := Sound config owning [] []) h.toSteady ?_ fun _ _ hsound _ => hsound)
    fun _ _ _ => Ends.raises
  rintro w' hsound rfl
  exact ⟨⟨hsound.toSteady, h.idle, h.free, h.owned⟩, hsound.synced⟩

/-- `Broker.prepare_power_profile` keeps the invariant, and takes the policy. -/
theorem wp_preparePowerProfile (h : Sound config owning [] [] s w) :
    wp (services False) (permitted config owning) (Broker.preparePowerProfile config)
      (outcome (fun _ s' w' => Acquired config owning s' w' ∧ Synced s' w')
        fun _ => Sound config owning [] []) s w := by
  unfold Broker.preparePowerProfile
  split
  · exact h
  rw [wp_bind, wp_get, outcome_ok]
  split
  · exact h
  rename_i hready
  simp only [not_or, ne_eq, Decidable.not_not, Bool.not_eq_true, Option.isSome_eq_false_iff,
    Option.isNone_iff_eq_none] at hready
  obtain ⟨-, hpending, hfree, -⟩ := hready
  rw [wp_bind]
  refine wp_policy_query rfl rfl (fun status hclaimed => ?_) fun e unknown _ => h.unknown unknown
  rw [outcome_ok, wp_bind, wp_get, outcome_ok, wp_when]
  refine ⟨fun _ => ?_, fun hc => ?_⟩
  · rw [wp_bind, wp_modify, outcome_ok, wp_bind]
    have hbegun : Steady config owning [] []
        { s with policyState := some status, policyRelease := some .stop } w :=
      ⟨h.recovered, fun v hv => by simp [hpending] at hv, by simp⟩
    refine wp_mono (wp_save_steady []
      (P := fun s' w' => Sound config owning [] [] s' w' ∧ s'.policyRelease.isSome)
      (R := Sound config owning [] []) hbegun (fun _ hsound _ => ⟨hsound, rfl⟩)
      fun _ _ hsound _ => hsound) ?_
    rintro (e | _) s₁ w₁ hsaved
    · exact hsaved.raises.2
    rw [outcome_ok, wp_attempt, wp_bind]
    have hgiveUp : ∀ {exc : Failure} {s' : Broker} {w' : World}, Steady config False [] [] s' w' →
        wp (services False) (permitted config owning)
          (do Broker.giveUp config false exc
              Broker.save
              Act.raise (tuningError "custom policy acquisition failed; inspect hardware tuning status"))
          (outcome (fun _ s' w' => Acquired config owning s' w' ∧ Synced s' w')
            fun _ => Sound config owning [] [] : Except Failure Unit → Broker → World → Prop) s' w' := by
      intro exc s' w' hsteady
      rw [wp_bind]
      refine wp_mono (wp_giveUp hsteady) ?_
      rintro (e | _) s₂ w₂ hgiven
      · exact hgiven.2
      · rw [outcome_ok, wp_bind]
        refine wp_mono (wp_save_raises hgiven.toSteady) ?_
        rintro (e | _) s₃ w₃ hend
        · exact hend.2
        · exact hend
    refine wp_mono (wp_acquire hsaved.1.toSteady hsaved.2) ?_
    rintro (e | _) s₂ w₂ hacquired
    · exact ⟨fun _ => hgiveUp hacquired.2, fun he => absurd (he ▸ hacquired.1) (by simp)⟩
    · refine wp_mono (wp_save_acquired hacquired) ?_
      rintro (e | _) s₃ w₃ hend
      · exact ⟨fun _ => hgiveUp hend.2.toSteady.forget, fun he => absurd (he ▸ hend.1) (by simp)⟩
      · exact hend
  · -- The policy is owned already.
    have hw : w.claimed = true := by
      rw [← hclaimed]
      simpa [Broker.claimed] using hc
    exact ⟨⟨(h.policyState _).toSteady, hpending, hfree, fun ho => ⟨hw, (h.owner ho hfree).2 hw⟩⟩,
      h.synced⟩

/-- Saving a selection and reconciling keeps the invariant. -/
theorem wp_saveAndReconcile (h : Steady config owning [] [] s w) :
    wp (services False) (permitted config owning) (Broker.saveAndReconcile config)
      (fun _ => Sound config owning [] []) s w := by
  unfold Broker.saveAndReconcile
  rw [wp_bind]
  refine wp_mono (wp_save_raises h) ?_
  rintro (e | _) s' w' hsaved
  · exact hsaved.2
  · exact wp_mono (wp_reconcile_raises hsaved) fun _ _ _ => Raises.always

/-- Asking for less, or for something under an owned policy, keeps the invariant. -/
theorem Steady.ask (h : Steady config owning locks journals s w) {s' : Broker}
    (howned : s'.owned = s.owned) (hpending : s'.recoveryPending = s.recoveryPending)
    (hfaults : s'.faults = s.faults) (hrelease : s'.policyRelease = s.policyRelease)
    (hasks : owning → s.policyRelease = none → s'.asksIntel config →
      s.asksIntel config ∨ w.claimed = true ∧ w.prepared = true) :
    Steady config owning locks journals s' w :=
  h.policed ⟨rfl, rfl, rfl⟩ howned hpending hfaults hrelease fun ho hr =>
    ⟨fun hask => (hasks ho hr hask).elim (h.owner ho hr).1 id, (h.owner ho hr).2⟩

/-- Clearing the holds asks for less. -/
theorem Broker.asksIntel_of_cleared {s' : Broker} (h : s'.asksIntel config)
    (hautomatic : s'.automatic = s.automatic)
    (hmanual : ∀ v, (s'.manual v).isSome → (s.manual v).isSome)
    (hheld : s'.powerHolds = fun _ => none) : s.asksIntel config := by
  rcases h with hauto | ⟨hin, hask⟩ | hask
  · exact .inl (hautomatic ▸ hauto)
  · exact .inr (.inl ⟨hin, hmanual _ hask⟩)
  · simp [Selection.held, hheld] at hask

variable {profile : Profile}

/-- `Broker.public_profile` keeps the invariant. -/
theorem wp_publicProfile (h : Sound config owning [] [] s w) :
    wp (services False) (permitted config owning) (Broker.publicProfile config profile)
      (fun _ => Sound config owning [] []) s w := by
  unfold Broker.publicProfile
  rw [wp_bind]
  refine wp_mono (wp_preparePowerProfile h) ?_
  rintro (e | _) s' w' hprepared
  · exact hprepared
  obtain ⟨hacquired, -⟩ := hprepared
  rw [outcome_ok, wp_bind, wp_modify, outcome_ok, wp_bind, wp_modify,
    outcome_ok, wp_bind]
  have hselected : Steady config owning [] []
      { s' with
        toSelection := { s'.clearPowerHolds with
          manual := fun _ => some profile
          faults := fun _ => none } } w' := by
    refine ⟨hacquired.recovered, fun v hv => ?_, fun ho _ =>
      ⟨fun _ => hacquired.owned ho, fun _ => (hacquired.owned ho).2⟩⟩
    have hv' : v ∈ s'.recoveryPending := hv
    simp [hacquired.idle] at hv'
  refine wp_mono (wp_save_raises hselected) ?_
  rintro (e | _) s₁ w₁ hsaved
  · exact hsaved.2
  rw [outcome_ok, wp_bind]
  refine wp_mono (wp_reconcile_raises hsaved) ?_
  rintro (e | _) s₂ w₂ hend
  · exact hend.2
  · rw [outcome_ok, wp_bind, wp_get, outcome_ok, wp_when]
    exact ⟨fun _ => hend, fun _ => hend⟩

/-- A manual selection keeps the invariant; for Intel the policy must be owned. -/
theorem wp_selectManual (h : Steady config owning [] [] s w) (hinstalled : vendor ∈ config.vendors)
    (howned : vendor = .intel → owning → s.policyRelease = none →
      w.claimed = true ∧ w.prepared = true) :
    wp (services False) (permitted config owning) (Broker.selectManual config vendor profile)
      (fun _ => Sound config owning [] []) s w := by
  have hselected : Steady config owning [vendor] [vendor] (s.selecting vendor profile) w := by
    refine ⟨fun v hv hj => .inr ((h.recovered v hv hj).resolve_left nofun), fun v hv => ?_,
      fun ho hr => ⟨?_, (h.owner ho hr).2⟩⟩
    · obtain ⟨hin, hlocked⟩ := h.interlocked v hv
      by_cases hsame : v = vendor
      · exact ⟨hin, .inl (by simp [hsame])⟩
      · exact ⟨hin, by simpa [hsame, Broker.selecting] using hlocked⟩
    · rintro (hask | ⟨hin, hask⟩ | hask)
      · exact (h.owner ho hr).1 (.inl hask)
      · by_cases hintel : vendor = .intel
        · exact howned hintel ho hr
        · exact (h.owner ho hr).1 (.inr (.inl ⟨hin, by
            simpa [Ne.symm hintel, Broker.selecting] using hask⟩))
      · exact (h.owner ho hr).1 (.inr (.inr hask))
  unfold Broker.selectManual
  rw [wp_bind, wp_modify, outcome_ok, wp_bind]
  refine wp_mono (wp_recover hselected hselected.interlocked hinstalled) ?_
  rintro (e | _) s' w' hrecovered
  · obtain ⟨-, hsteady, -, hfailed⟩ := hrecovered.raises
    refine ⟨hsteady, fun hsaved => ?_⟩
    rw [hfailed] at hsaved
    cases hsaved
  · exact wp_saveAndReconcile hrecovered.1

/-- `Broker.action` for a manual selection keeps the invariant. -/
theorem wp_manualAction {requiresOwner : Bool} (h : Sound config owning [] [] s w)
    (hinstalled : vendor ∈ config.vendors) (hclaimed : s.claimed = w.claimed)
    (hrequires : vendor = .intel → requiresOwner = true) :
    wp (services False) (permitted config owning)
      (Broker.manualAction config vendor profile requiresOwner)
      (fun _ => Sound config owning [] []) s w := by
  have hcleared : Sound config owning [] [] s.clearHolds w :=
    ⟨h.toSteady.ask rfl rfl rfl rfl fun _ _ hask =>
      .inl (Broker.asksIntel_of_cleared hask rfl (fun _ => id) rfl), h.synced⟩
  unfold Broker.manualAction
  rw [wp_bind, wp_modify, outcome_ok, wp_bind, wp_get, outcome_ok]
  split
  · exact hcleared
  split
  · rw [wp_bind, wp_modify, outcome_ok, wp_bind]
    refine wp_mono (wp_save_steady []
      (P := fun s' w' => Sound config owning [] [] s' w' ∧ s'.policyRelease.isSome)
      (R := Sound config owning [] [])
      (s := { s.clearHolds with policyRelease := some .stop })
      ⟨h.recovered, fun v hv => ?_, by simp⟩ (fun _ hsound _ => ⟨hsound, rfl⟩)
      fun _ _ hsound _ => hsound) ?_
    · obtain ⟨hin, hlocked⟩ := h.interlocked v hv
      exact ⟨hin, hlocked.imp_right (Or.imp_right fun hsaved => ⟨hsaved.1, rfl⟩)⟩
    rintro (e | _) s₁ w₁ hsaved
    · exact hsaved.raises.2
    rw [outcome_ok, wp_bind, wp_handleIf_cases, wp_bind]
    refine wp_mono (wp_acquire hsaved.1.toSteady hsaved.2) ?_
    rintro (e | _) s₂ w₂ hacquired
    · refine ⟨fun _ => ?_, fun he => absurd (he ▸ hacquired.1) (by simp)⟩
      rw [wp_bind]
      refine wp_mono (wp_giveUp hacquired.2) ?_
      rintro (e | _) s₃ w₃ hgiven
      · exact hgiven.2
      · rw [outcome_ok, wp_bind]
        refine wp_mono (wp_save_raises hgiven.toSteady) ?_
        rintro (e | _) s₄ w₄ hend
        · exact hend.2
        · exact hend
    · exact wp_selectManual hacquired.toSteady hinstalled fun _ ho _ => hacquired.owned ho
  · rename_i howner
    refine wp_selectManual hcleared.toSteady hinstalled fun hintel ho hr => ?_
    have hw : w.claimed = true := by
      rw [← hclaimed]
      simpa [hrequires hintel, Broker.claimed, Broker.clearHolds] using howner
    exact ⟨hw, (h.owner ho hr).2 hw⟩

/-- Retrying pending recoveries keeps the invariant. -/
private theorem wp_retry_each {vendors : List Vendor} (h : Sound config owning [] [] s w)
    (hinstalled : vendors ⊆ config.vendors) :
    wp (services False) (permitted config owning) (Act.forEach vendors Broker.recover)
      (Raises (Sound config owning [] []) (Sound config owning [] [])) s w := by
  refine wp_mono (wp_recover_each [] vendors false false h.toSteady nofun hinstalled) ?_
  rintro (e | _) s' w' hend
  · obtain ⟨he, hsteady, -, hfailed⟩ := hend.raises
    refine ⟨he, hsteady, fun hsaved => ?_⟩
    rw [hfailed] at hsaved
    cases hsaved
  · exact ⟨hend.1, hend.2.synced h.synced⟩

variable {request : ControlRequest}

/-- `Broker.action` after its checks keeps the invariant. -/
theorem wp_perform (h : Sound config owning [] [] s w) (hvalid : request.valid config = true)
    (hclaimed : request.asksPolicy = some true → s.claimed = w.claimed) :
    wp (services False) (permitted config owning) (Broker.perform config request)
      (fun _ => Sound config owning [] []) s w := by
  have hstop : ∀ disable, wp (services False) (permitted config owning)
      (Broker.stopTuning config disable true) (fun _ => Sound config owning [] []) s w := by
    intro disable
    refine wp_mono (wp_stopTuning_raises h.recovered ?_) fun _ _ _ => Raises.always
    exact h.interlocked.mono nofun
  have hpaused : ∀ paused, Sound config owning [] [] { s with paused := paused } w := fun paused =>
    ⟨⟨h.recovered, h.interlocked, h.owner⟩, h.synced⟩
  unfold Broker.perform
  cases request with
  | status => exact h
  | report =>
    refine wp_forEach (fun _ => Sound config owning [] []) h ?_ fun _ _ hend => hend
    intro vendor rest s' w' hsound
    rw [wp_attempt]
    exact wp_workerReport hsound fun e unknown _ => ⟨fun _ => hsound.unknown unknown,
      fun _ => hsound.unknown unknown⟩
  | autoStart confirmed => exact wp_startTuning h
  | bootEnable confirmed => exact wp_startTuning h
  | autoStop => exact hstop _
  | bootDisable => exact hstop _
  | reset => exact hstop _
  | manual vendor profile confirmed =>
    have hinstalled : vendor ∈ config.vendors := by simpa [ControlRequest.valid] using hvalid
    refine wp_manualAction h hinstalled (hclaimed rfl) ?_
    rintro rfl
    simpa [ControlRequest.requiresOwner] using hinstalled
  | profilesReset =>
    rw [wp_bind, wp_modify, outcome_ok, wp_bind, wp_modify, outcome_ok]
    refine wp_saveAndReconcile (h.toSteady.ask rfl rfl rfl rfl fun _ _ hask => .inl ?_)
    exact Broker.asksIntel_of_cleared hask rfl nofun rfl
  | pause =>
    rw [wp_bind, wp_modify, outcome_ok, wp_bind, wp_get, outcome_ok,
      wp_bind]
    refine wp_mono (wp_retry_each (hpaused true) ((List.filter_subset_self _))) ?_
    rintro (e | _) s' w' hretried
    · exact hretried.2
    · exact wp_saveAndReconcile hretried.toSteady
  | resume =>
    rw [wp_bind, wp_modify, outcome_ok]
    exact wp_saveAndReconcile (hpaused false).toSteady
  | powerProfile profile => exact wp_publicProfile h

/-- The policy query of a request keeps the invariant; when its answer matters it is known. -/
private theorem wp_askPolicy (h : Sound config owning [] [] s w) :
    wp (services False) (permitted config owning) (Broker.askPolicy request)
      (outcome (fun _ s' w' => Sound config owning [] [] s' w' ∧
          (request.asksPolicy = some true → s'.claimed = w'.claimed))
        fun _ => Sound config owning [] []) s w := by
  unfold Broker.askPolicy
  cases hasks : request.asksPolicy with
  | none => exact ⟨h, nofun⟩
  | some strict =>
    rw [wp_attempt]
    refine wp_policy_query rfl rfl (fun status hclaimed => ⟨h.policyState _, fun _ => hclaimed⟩)
      fun e unknown he => ⟨fun _ => ?_, fun hnot => absurd (he ▸ hnot) nofun⟩
    have hlost := h.unknown unknown
    cases strict with
    | true => exact hlost
    | false => exact ⟨⟨⟨hlost.recovered, hlost.interlocked, hlost.owner⟩, hlost.synced⟩, nofun⟩

/-- `Broker.action` keeps the invariant. -/
theorem wp_action {peer : Peer} (h : Sound config owning [] [] s w)
    (hvalid : request.valid config = true) :
    wp (services False) (permitted config owning) (Broker.action config request peer)
      (fun _ => Sound config owning [] []) s w := by
  have hchecked : ∀ {w' : World}, Sound config owning [] [] s w' →
      wp (services False) (permitted config owning)
        (do Broker.askPolicy request
            let s ← Act.get
            if request.requiresOwner config ∧ peer ≠ .root ∧ request.confirmed = false ∧
                (request.enablesBoot ∨ s.claimed = false) then
              Act.raise (tuningError "policy handover needs confirmation; use the launcher confirmation or --confirm-policy-owner")
            else Broker.perform config request)
        (fun _ => Sound config owning [] []) s w' := by
    intro w' hsound
    rw [wp_bind]
    refine wp_mono (wp_askPolicy hsound) ?_
    rintro (e | _) s'' w'' hasked
    · exact hasked
    · rw [outcome_ok, wp_bind, wp_get, outcome_ok]
      split
      · exact hasked.1
      · exact wp_perform hasked.1 hvalid hasked.2
  unfold Broker.action
  split
  · exact h
  rw [wp_bind]
  unfold Broker.checkSeat
  rw [wp_when]
  refine ⟨fun _ => ?_, fun _ => hchecked h⟩
  rw [wp_bind]
  refine wp_seatActive fun active => ?_
  have hlooked : Sound config owning [] [] s { w with seatLost := w.seatLost || !active } :=
    ⟨⟨h.recovered, h.interlocked, h.owner⟩, h.synced⟩
  rw [outcome_ok, wp_when]
  exact ⟨fun _ => hlooked, fun _ => hchecked hlooked⟩

end Requests

end Preseed.HardwareTuning
