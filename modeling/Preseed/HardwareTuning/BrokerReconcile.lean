import Preseed.HardwareTuning.BrokerInvariant

/-!
# Reconciling keeps the invariant

`Broker.reconcile` may apply a profile only for a vendor that is neither faulted nor
waits for its recovery, and Intel profiles only under the policy; when it fails in
between, the vendor's fault is recorded. At its end it may hand the policy back.
-/

namespace Preseed.HardwareTuning

open Effects

section Reconcile

variable {config : Config} {owning cancellable : Prop} {s : Broker} {w : World} {vendor : Vendor}

/-- Applying a profile. -/
private theorem wp_install {profile : Profile} (h : Sound config owning [] [] s w)
    (hinstalled : vendor ∈ config.vendors) (hfault : s.faults vendor = none)
    (hrelease : s.policyRelease = none) (hasks : vendor = .intel → s.asksIntel config) :
    wp (services cancellable) (permitted config owning) (Broker.install vendor profile)
      (Ends config cancellable [] (Sound config owning [] []) (Steady config owning [] [vendor]))
      s w := by
  have hfree : vendor ∉ s.recoveryPending := by
    intro hpending
    obtain ⟨-, hlocked⟩ := h.interlocked vendor hpending
    simp [hfault, hrelease] at hlocked
  have hguard : permitted config owning w s (.apply vendor profile) :=
    ⟨fun ho hintel => (h.owner ho hrelease).1 (hasks hintel), hrelease, hfault, hfree,
      fun hsaved => (h.synced hsaved).trans hrelease⟩
  unfold Broker.install
  rw [wp_bind]
  refine wp_workerApply hguard ?_ ?_
  · intro controls owned hkept
    refine ⟨⟨fun v hv hjournal => ?_, h.interlocked, h.owner⟩, h.synced⟩
    by_cases hsame : v = vendor
    · subst hsame
      exact .inr (.inl (by simpa using hkept (by simpa [World.withJournal] using hjournal)))
    · have hother := h.recovered v hv (by simpa [World.withJournal, hsame] using hjournal)
      simpa [hsame] using hother
  · intro e unknown owned hcancel
    have hsteady : Steady config owning [] [vendor] { s with childOutcomeUnknown := unknown }
      (w.withJournal vendor owned) := h.toSteady.withJournal_except.unknown unknown
    exact ⟨fun _ => hsteady, fun he => ⟨hcancel he, hsteady.interlocked⟩⟩

/-- The health check changes nothing, or it raises. -/
private theorem wp_checkHealth {health : Bool} {desired : Option Profile}
    (h : Sound config owning [] [] s w) :
    wp (services cancellable) (permitted config owning) (Broker.checkHealth health vendor desired)
      (Ends config cancellable [] (fun s' w' => s' = s ∧ w' = w)
        (Steady config owning [] [vendor])) s w := by
  have hraised : Steady config owning [] [vendor] s w := h.toSteady.mono nofun nofun
  unfold Broker.checkHealth
  rw [wp_bind, wp_get, outcome_ok, wp_when]
  refine ⟨fun _ => ?_, fun _ => ⟨rfl, rfl⟩⟩
  rw [wp_bind]
  refine wp_workerHealth (fun conflicts => ?_) fun e unknown hcancel => ?_
  · rw [outcome_ok, wp_when]
    exact ⟨fun _ => ⟨fun _ => hraised, nofun⟩, fun _ => ⟨rfl, rfl⟩⟩
  · exact ⟨fun _ => hraised.unknown unknown, fun he => ⟨hcancel he, h.interlocked⟩⟩

/-- A vendor that has been restored leaves the invariant as it is. -/
theorem Sound.restored (h : Sound config owning [] [] s w) :
    Sound config owning [] [] (s.restored vendor) (w.withJournal vendor false) :=
  ⟨(h.toSteady.mono nofun nofun).restored, h.synced⟩

private theorem wp_installDesired {desired : Option Profile} (h : Sound config owning [] [] s w)
    (hinstalled : vendor ∈ config.vendors) (hfault : s.faults vendor = none)
    (hdesired : desired.isSome → s.policyRelease = none ∧ (vendor = .intel → s.asksIntel config)) :
    wp (services cancellable) (permitted config owning)
      (match desired with
        | none => pure ()
        | some profile => Broker.install vendor profile)
      (Ends config cancellable [] (Sound config owning [] []) (Steady config owning [] [vendor]))
      s w := by
  cases desired with
  | none => exact h
  | some profile =>
    obtain ⟨hfree, hintel⟩ := hdesired rfl
    exact wp_install h hinstalled hfault hfree hintel

/-- Changing the profile of a vendor that is not faulted. -/
private theorem wp_changeProfile {desired : Option Profile} (h : Sound config owning [] [] s w)
    (hinstalled : vendor ∈ config.vendors) (hfault : s.faults vendor = none)
    (hdesired : desired.isSome → s.policyRelease = none ∧ (vendor = .intel → s.asksIntel config)) :
    wp (services cancellable) (permitted config owning) (Broker.changeProfile vendor desired)
      (Ends config cancellable [] (Sound config owning [] []) (Steady config owning [] [vendor]))
      s w := by
  unfold Broker.changeProfile
  rw [wp_bind, wp_get, outcome_ok, wp_when]
  refine ⟨fun _ => ?_, fun _ => h⟩
  rw [wp_bind, wp_when]
  refine ⟨fun _ => ?_, fun _ => wp_installDesired h hinstalled hfault hdesired⟩
  refine wp_restore (wp_installDesired h.restored hinstalled hfault hdesired) fun e unknown owned hkept hcancel => ?_
  have hsteady := (h.toSteady.withJournal hkept).unknown unknown
  exact ⟨fun _ => hsteady.mono (by simp) (by simp), fun he => ⟨hcancel he, hsteady.interlocked⟩⟩

/-- The round of one vendor keeps the invariant. -/
theorem wp_reconcileVendor {health active : Bool} {idle : Option Profile}
    (h : Sound config owning [] [] s w) (hinstalled : vendor ∈ config.vendors) :
    wp (services cancellable) (permitted config owning)
      (Broker.reconcileVendor health active idle vendor)
      (Ends config cancellable [] (Sound config owning [] []) (Sound config owning [] [])) s w := by
  unfold Broker.reconcileVendor
  rw [wp_bind, wp_get, outcome_ok, wp_when]
  refine ⟨fun hfault => ?_, fun _ => h⟩
  -- Whatever ends the round with an exception leaves a fault of this vendor.
  have hrecord : ∀ {e : Failure} {s' : Broker} {w' : World},
      ((e.isException = true → Steady config owning [] [vendor] s' w') ∧
        (e.isException = false → cancellable ∧ Interlocked config [] s' w')) →
      (e.isException = true → wp (services cancellable) (permitted config owning)
        (Broker.fault vendor e)
        (Ends config cancellable [] (Sound config owning [] []) (Sound config owning [] [])) s' w') ∧
      (e.isException = false →
        Ends config cancellable [] (Sound config owning [] []) (Sound config owning [] [])
          (.error e : Except Failure Unit) s' w') := by
    rintro e s' w' ⟨hraised, hcancelled⟩
    refine ⟨fun he => ?_, fun he => ⟨fun hexception => absurd (he ▸ hexception) nofun, hcancelled⟩⟩
    have hsteady : Steady config owning [vendor] [vendor] s' w' :=
      (hraised he).mono nofun fun _ hv => hv
    refine wp_mono (wp_fault hsteady (hraised he).interlocked hinstalled) ?_
    rintro (e' | _) s'' w'' hend
    · exact ⟨fun he' => (hend.1 he').1, hend.2⟩
    · exact hend.1
  have hdesired : ∀ desired : Option Profile,
      desired = (if s.policyRelease.isSome then none else s.desired vendor active idle) →
      desired.isSome → s.policyRelease = none ∧ (vendor = .intel → s.asksIntel config) := by
    rintro desired rfl hsome
    split at hsome
    · cases hsome
    · rename_i hrelease
      refine ⟨by simpa using hrelease, ?_⟩
      rintro rfl
      exact (Selection.desired_isSome hsome).2.imp_right (Or.imp_left fun hmanual =>
        ⟨hinstalled, hmanual⟩)
  rw [wp_attempt, wp_bind]
  refine wp_mono (wp_checkHealth h) ?_
  rintro (e | _) s₁ w₁ hchecked
  · exact hrecord hchecked
  · obtain ⟨rfl, rfl⟩ := hchecked
    refine wp_mono (wp_changeProfile h hinstalled hfault (hdesired _ rfl)) ?_
    rintro (e | _) s₂ w₂ hchanged
    · exact hrecord hchanged
    · exact hchanged

/-- Handing the policy back at the end of a round keeps the invariant. -/
theorem wp_handBack (h : Sound config owning [] [] s w) :
    wp (services cancellable) (permitted config owning) (Broker.handBack config)
      (Ends config cancellable [] (Sound config owning [] []) (Sound config owning [] [])) s w := by
  unfold Broker.handBack
  rw [wp_bind, wp_get, outcome_ok]
  split
  · exact wp_stopTuning h.recovered h.interlocked
  · rw [wp_when]
    refine ⟨?_, fun _ => h⟩
    rintro ⟨hautomatic, hmanual, hheld, -, hrelease, hpending, howned⟩
    rw [wp_attempt]
    refine wp_policy (permitted_giveBack h.recovered hpending howned) ?_ ?_
    · intro status w' hpoliced _
      have hframe := hpoliced.frame
      obtain ⟨claimed, -, hdone, rfl⟩ := hpoliced
      have hidle : ¬s.asksIntel config := by
        rintro (hasks | ⟨hintel, hasks⟩ | hasks)
        · rw [hautomatic] at hasks
          cases hasks
        · exact absurd hasks (by simpa using List.any_eq_false.mp hmanual .intel hintel)
        · rw [hheld] at hasks
          cases hasks
      have hclaimed : claimed = false := hdone rfl nofun
      refine ⟨⟨h.recovered, h.interlocked, fun _ _ => ⟨fun hasks => absurd hasks hidle, ?_⟩⟩, h.synced⟩
      intro hc
      rw [hclaimed] at hc
      cases hc
    · intro e unknown w' hw' hcancel
      have hframe : w'.journal = w.journal ∧ w'.saveFailed = w.saveFailed ∧
          w'.durable = w.durable := by
        rcases hw' with rfl | hpoliced
        · exact ⟨rfl, rfl, rfl⟩
        · exact hpoliced.frame
      have hsteady : ∀ s' : Broker, s'.owned = s.owned → s'.recoveryPending = s.recoveryPending →
          s'.policyRelease.isSome → Steady config owning [] [] s' w' := by
        intro s' howned' hpending' hrelease'
        refine ⟨fun v hv hjournal => ?_, fun v hv => ?_, fun _ hr => ?_⟩
        · rw [howned', hpending']
          exact h.recovered v hv (by rwa [hframe.1] at hjournal)
        · rw [hpending', hpending] at hv
          simp at hv
        · rw [hr] at hrelease'
          cases hrelease'
      refine ⟨fun _ => ?_, fun he => ⟨fun hexception => absurd (he ▸ hexception) nofun,
        fun _ => ⟨hcancel he, fun v hv => ?_⟩⟩⟩
      · rw [wp_bind, wp_modify, outcome_ok]
        exact wp_save_steady _ (hsteady _ rfl rfl rfl) (fun _ hsound _ => hsound)
          fun _ _ hsound _ => hsound
      · have hv' : v ∈ s.recoveryPending := hv
        simp [hpending] at hv'

/-- `Broker.reconcile` keeps the invariant. -/
theorem wp_reconcile {health : Bool} (h : Sound config owning [] [] s w) :
    wp (services cancellable) (permitted config owning) (Broker.reconcile config health)
      (Ends config cancellable [] (Sound config owning [] []) (Sound config owning [] [])) s w := by
  -- Forgetting the manual selections asks for less.
  have hforget : ∀ w' : World, w' = { w with seatLost := w'.seatLost } →
      Steady config owning [] [] { s with manual := fun _ => none } w' := by
    rintro w' hw'
    rw [hw']
    refine ⟨h.recovered, h.interlocked, fun ho hr => ?_⟩
    obtain ⟨hasks, hproper⟩ := h.owner ho hr
    refine ⟨?_, hproper⟩
    rintro (hauto | ⟨-, hmanual⟩ | hheld)
    · exact hasks (.inl hauto)
    · cases hmanual
    · exact hasks (.inr (.inr hheld))
  have hrounds : ∀ {s' : Broker} {w' : World} {active : Bool} {idle : Option Profile},
      Sound config owning [] [] s' w' →
      wp (services cancellable) (permitted config owning)
        (do Act.forEach config.vendors (Broker.reconcileVendor health active idle)
            Broker.handBack config)
        (Ends config cancellable [] (Sound config owning [] []) (Sound config owning [] [])) s' w' := by
    intro s' w' active idle hsound
    rw [wp_bind]
    refine wp_forEach (fun rest s' w' => Sound config owning [] [] s' w' ∧ rest ⊆ config.vendors)
      ⟨hsound, fun _ hv => hv⟩ ?_ fun s' w' hend => wp_handBack hend.1
    rintro vendor rest s' w' ⟨hsound', hsub⟩
    refine wp_mono (wp_reconcileVendor hsound' (hsub (by simp))) ?_
    rintro (e | _) s'' w'' hround
    · exact hround
    · exact ⟨hround, fun v hv => hsub (List.mem_cons_of_mem _ hv)⟩
  have hseen : ∀ {s' : Broker} {w' : World} {active : Bool}, Sound config owning [] [] s' w' →
      Sound config owning [] [] { s' with wasActive := active } w' := fun hsound =>
    ⟨⟨hsound.recovered, hsound.interlocked, hsound.owner⟩, hsound.synced⟩
  unfold Broker.reconcile
  rw [wp_bind]
  refine wp_seatActive fun active => ?_
  rw [outcome_ok, wp_bind, wp_get, outcome_ok, wp_bind, wp_when]
  have hlooked : Sound config owning [] [] s { w with seatLost := w.seatLost || !active } :=
    ⟨⟨h.recovered, h.interlocked, h.owner⟩, h.synced⟩
  constructor
  · intro _
    rw [wp_bind, wp_modify, outcome_ok]
    refine wp_mono (wp_save_steady [] (hforget _ rfl) (fun _ hsound _ => hsound)
      fun _ _ hsound _ => hsound) ?_
    rintro (e | _) s' w' hsaved
    · exact hsaved
    · rw [outcome_ok, wp_bind, wp_modify, outcome_ok, wp_bind]
      exact wp_onAc fun ac => hrounds (hseen hsaved)
  · intro _
    rw [outcome_ok, wp_bind, wp_modify, outcome_ok, wp_bind]
    exact wp_onAc fun ac => hrounds (hseen hlooked)

end Reconcile

end Preseed.HardwareTuning
