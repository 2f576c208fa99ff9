import Preseed.HardwareTuning.BrokerRules

/-!
# The invariant of the broker

What the broker keeps in order whatever its helpers do: a vendor with a journal is
known to own controls or to wait for its recovery, a vendor that waits for its
recovery is faulted, the policy is owned whenever something may ask for an Intel
profile, and the controls file knows the handback that is to be done. The theorems
of this file show for every program of the broker that it keeps this invariant, and
that it runs its helpers only when `permitted`.
-/

namespace Preseed.HardwareTuning

open Effects

/-- Every vendor with a journal, except some, is known to own controls or to wait for its
recovery. -/
def Recovered (config : Config) (except : List Vendor) (s : Broker) (w : World) : Prop :=
  ∀ vendor ∈ config.vendors, w.journal vendor = true →
    vendor ∈ except ∨ s.owned vendor = true ∨ vendor ∈ s.recoveryPending

/-- Every vendor that waits for its recovery, except some, is faulted, unless saving has failed
and a handback is to be done. -/
def Interlocked (config : Config) (except : List Vendor) (s : Broker) (w : World) : Prop :=
  ∀ vendor ∈ s.recoveryPending, vendor ∈ config.vendors ∧
    (vendor ∈ except ∨ (s.faults vendor).isSome ∨ w.saveFailed = true ∧ s.policyRelease.isSome)

/-- Something may ask for an Intel profile. -/
def Broker.asksIntel (s : Broker) (config : Config) : Prop :=
  s.automatic = true ∨ (.intel ∈ config.vendors ∧ (s.manual .intel).isSome) ∨ s.held = true

/-- The policy is owned if something may ask for an Intel profile, and it is owned properly. -/
def Owner (config : Config) (s : Broker) (w : World) : Prop :=
  (s.asksIntel config → w.claimed = true ∧ w.prepared = true) ∧ (w.claimed = true → w.prepared = true)

/-- The controls file asks for the handback that is to be done. -/
def Synced (s : Broker) (w : World) : Prop :=
  w.saveFailed = false → w.savedRelease = s.policyRelease

/-- The invariant up to the controls file. -/
structure Steady (config : Config) (owning : Prop) (locks journals : List Vendor) (s : Broker)
    (w : World) : Prop where
  /-- The recovery of the vendors is known about. -/
  recovered : Recovered config journals s w
  /-- It keeps them from being tuned. -/
  interlocked : Interlocked config locks s w
  /-- The policy is owned, unless it is about to be handed back. -/
  owner : owning → s.policyRelease = none → Owner config s w

/-- The invariant of the broker. -/
structure Sound (config : Config) (owning : Prop) (locks journals : List Vendor) (s : Broker)
    (w : World) : Prop extends Steady config owning locks journals s w where
  /-- The controls file is up to date. -/
  synced : Synced s w

/-- The postcondition of a program of the broker: one for a result, one for an exception, and
interlocks for a cancellation. -/
def Ends {α : Type} (config : Config) (cancellable : Prop) (locks : List Vendor)
    (P R : Broker → World → Prop) : Except Failure α → Broker → World → Prop
  | .ok _ => P
  | .error e => fun s w => (e.isException = true → R s w) ∧
      (e.isException = false → cancellable ∧ Interlocked config locks s w)

section Invariant

variable {config : Config} {owning guarding cancellable : Prop} {locks journals : List Vendor}
  {s s' : Broker} {w w' : World} {vendor : Vendor}

/-! ### How the invariant moves -/

theorem Interlocked.mono {locks' : List Vendor} (h : Interlocked config locks s w)
    (hsub : ∀ v ∈ locks, v ∈ locks') : Interlocked config locks' s w :=
  fun v hv => ⟨(h v hv).1, (h v hv).2.imp_left (hsub v)⟩

section

variable (h : Steady config owning locks journals s w)
include h

theorem Steady.mono {locks' journals' : List Vendor}
    (hlocks : ∀ v ∈ locks, v ∈ locks') (hjournals : ∀ v ∈ journals, v ∈ journals') :
    Steady config owning locks' journals' s w where
  recovered v hv hjournal := (h.recovered v hv hjournal).imp_left (hjournals v)
  interlocked := h.interlocked.mono hlocks
  owner := h.owner

/-- Losing a helper process leaves the invariant as it is. -/
theorem Steady.unknown (unknown : Bool) :
    Steady config owning locks journals { s with childOutcomeUnknown := unknown } w :=
  ⟨h.recovered, h.interlocked, h.owner⟩

/-- A worker that adds nothing to its journal leaves the invariant as it is. -/
theorem Steady.withJournal {owned : Bool}
    (hkept : owned = true → w.journal vendor = true) :
    Steady config owning locks journals s (w.withJournal vendor owned) where
  recovered v hv hjournal := by
    refine h.recovered v hv ?_
    by_cases hsame : v = vendor
    · subst hsame
      exact hkept (by simpa [World.withJournal] using hjournal)
    · simpa [World.withJournal, hsame] using hjournal
  interlocked := h.interlocked
  owner := h.owner

/-- A worker may do anything to a journal that is excepted. -/
theorem Steady.withJournal_except {owned : Bool} :
    Steady config owning locks (vendor :: journals) s (w.withJournal vendor owned) where
  recovered v hv hjournal := by
    by_cases hsame : v = vendor
    · exact .inl (by simp [hsame])
    · exact (h.recovered v hv (by simpa [World.withJournal, hsame] using hjournal)).imp_left
        (List.mem_cons_of_mem _)
  interlocked := h.interlocked
  owner := h.owner

end

/-- The memory after a vendor has been restored. -/
def Broker.restored (s : Broker) (vendor : Vendor) : Broker :=
  { s with
    applied := Function.update s.applied vendor none
    owned := Function.update s.owned vendor false
    recoveryPending := s.recoveryPending.erase vendor }

/-- A vendor that has been restored needs no exception. -/
theorem Steady.restored (h : Steady config owning (vendor :: locks) (vendor :: journals) s w) :
    Steady config owning locks journals (s.restored vendor) (w.withJournal vendor false) where
  recovered v hv hjournal := by
    have hne : v ≠ vendor := by
      rintro rfl
      simp [World.withJournal] at hjournal
    have hother := h.recovered v hv (by simpa [World.withJournal, hne] using hjournal)
    simpa [Broker.restored, hne] using hother
  interlocked v hv := by
    obtain ⟨hne, hpending⟩ := Finset.mem_erase.mp hv
    obtain ⟨hinstalled, hlocked⟩ := h.interlocked v hpending
    exact ⟨hinstalled, by simpa [hne, Broker.restored, World.withJournal] using hlocked⟩
  owner := h.owner

variable {error : String}

/-- A vendor that is faulted and waits for its recovery needs no exception. -/
theorem Steady.faulted {pending : Finset Vendor}
    (h : Steady config owning (vendor :: locks) (vendor :: journals) s w)
    (hinstalled : vendor ∈ config.vendors) (hpending : pending = insert vendor s.recoveryPending) :
    Steady config owning locks journals
      { s with
        recoveryPending := pending
        faults := Function.update s.faults vendor (some error) } w where
  recovered v hv hjournal := by
    subst hpending
    have hother := h.recovered v hv hjournal
    by_cases hsame : v = vendor
    · simp [hsame]
    · simpa [hsame] using hother
  interlocked v hv := by
    subst hpending
    by_cases hsame : v = vendor
    · subst hsame
      exact ⟨hinstalled, by simp⟩
    · obtain ⟨hin, hlocked⟩ := h.interlocked v (by simpa [hsame] using hv)
      exact ⟨hin, by simpa [hsame] using hlocked⟩
  owner := h.owner

/-- A fault of a vendor that does not wait for its recovery. -/
theorem Steady.fault_added (h : Steady config owning locks journals s w) :
    Steady config owning locks journals
      { s with faults := Function.update s.faults vendor (some error) } w where
  recovered := h.recovered
  interlocked v hv := by
    obtain ⟨hin, hlocked⟩ := h.interlocked v hv
    refine ⟨hin, hlocked.imp_right (Or.imp_left fun hfault => ?_)⟩
    by_cases hsame : v = vendor
    · simp [hsame]
    · simpa [hsame] using hfault
  owner := h.owner

/-- While a handback is to be done and saving has failed, no lock needs an exception. -/
theorem Steady.unlocked (h : Steady config owning locks journals s w)
    (hinstalled : ∀ v ∈ s.recoveryPending, v ∈ config.vendors) (hfailed : w.saveFailed = true)
    (hrelease : s.policyRelease.isSome) : Steady config owning [] journals s w where
  recovered := h.recovered
  interlocked v hv := ⟨hinstalled v hv, .inr (.inr ⟨hfailed, hrelease⟩)⟩
  owner := h.owner

/-- The invariant after a save, successful or not. -/
theorem wp_save_steady (within : List Vendor) {P R : Broker → World → Prop}
    (h : Steady config owning locks journals s w)
    (hok : ∀ w', Sound config owning locks journals s w' → w' = { w with durable := some s.controls } →
      P s w')
    (herr : ∀ w' durable, Sound config owning locks journals s w' →
      w' = { w with durable := durable, saveFailed := true } → R s w') :
    wp (services cancellable) (permitted config guarding) Broker.save
      (Ends config cancellable within P R) s w := by
  refine wp_save (hok _ ⟨⟨h.recovered, h.interlocked, h.owner⟩, fun _ => rfl⟩ rfl) ?_
  intro e durable he
  refine ⟨fun _ => herr _ durable ⟨⟨h.recovered, fun v hv => ?_, h.owner⟩, nofun⟩ rfl, ?_⟩
  · obtain ⟨hin, hlocked⟩ := h.interlocked v hv
    exact ⟨hin, hlocked.imp_right (Or.imp_right fun hsaved => ⟨rfl, hsaved.2⟩)⟩
  · rw [he]
    nofun

/-! ### SameRequest -/

/-- What restoring vendors leaves as it is. -/
structure SameRequest (s : Broker) (w : World) (s' : Broker) (w' : World) : Prop where
  automatic : s'.automatic = s.automatic
  manual : s'.manual = s.manual
  powerHolds : s'.powerHolds = s.powerHolds
  policyRelease : s'.policyRelease = s.policyRelease
  policyState : s'.policyState = s.policyState
  claimed : w'.claimed = w.claimed
  prepared : w'.prepared = w.prepared
  synced : Synced s w → Synced s' w'

theorem SameRequest.refl (s : Broker) (w : World) : SameRequest s w s w :=
  ⟨rfl, rfl, rfl, rfl, rfl, rfl, rfl, id⟩

theorem SameRequest.trans {s'' : Broker} {w'' : World} (h : SameRequest s w s' w')
    (h' : SameRequest s' w' s'' w'') : SameRequest s w s'' w'' where
  automatic := h'.automatic.trans h.automatic
  manual := h'.manual.trans h.manual
  powerHolds := h'.powerHolds.trans h.powerHolds
  policyRelease := h'.policyRelease.trans h.policyRelease
  policyState := h'.policyState.trans h.policyState
  claimed := h'.claimed.trans h.claimed
  prepared := h'.prepared.trans h.prepared
  synced := h'.synced ∘ h.synced

/-- The rule of `Broker.restore`. -/
theorem wp_restore {Q : Except Failure Unit → Broker → World → Prop}
    (hok : Q (.ok ()) (s.restored vendor) (w.withJournal vendor false))
    (herr : ∀ e unknown owned, (owned = true → w.journal vendor = true) →
      (e.isException = false → cancellable) →
      Q (.error e) { s with childOutcomeUnknown := unknown } (w.withJournal vendor owned)) :
    wp (services cancellable) (permitted config guarding) (Broker.restore vendor) Q s w := by
  unfold Broker.restore
  rw [wp_bind]
  exact wp_workerReset hok herr

variable {within : List Vendor}

/-- Recording a fault keeps the invariant of the memory it is recorded in. -/
private theorem wp_recordFault {s₁ : Broker} {w₁ : World} (h : Steady config owning locks journals
      { s₁ with faults := Function.update s₁.faults vendor (some (clip error)) } w₁)
    (hrestoring : SameRequest s w s₁ w₁) :
    wp (services cancellable) (permitted config guarding)
      (do Act.modify fun s => { s with faults := Function.update s.faults vendor (some (clip error)) }
          Broker.save)
      (Ends config cancellable within
        (fun s' w' => Sound config owning locks journals s' w' ∧ SameRequest s w s' w')
        fun s' w' => Sound config owning locks journals s' w' ∧ SameRequest s w s' w' ∧
          w'.saveFailed = true) s₁ w₁ := by
  rw [wp_bind, wp_modify, outcome_ok]
  refine wp_save_steady within h ?_ ?_
  · rintro w' hsound rfl
    exact ⟨hsound, hrestoring.trans ⟨rfl, rfl, rfl, rfl, rfl, rfl, rfl, fun _ => hsound.synced⟩⟩
  · rintro w' durable hsound rfl
    exact ⟨hsound, hrestoring.trans ⟨rfl, rfl, rfl, rfl, rfl, rfl, rfl, fun _ => hsound.synced⟩, rfl⟩

/-- The rule of `Broker.fault`. -/
theorem wp_fault {exc : Failure}
    (h : Steady config owning (vendor :: locks) (vendor :: journals) s w)
    (hwithin : Interlocked config within s w) (hinstalled : vendor ∈ config.vendors) :
    wp (services cancellable) (permitted config guarding) (Broker.fault vendor exc)
      (Ends config cancellable within
        (fun s' w' => Sound config owning locks journals s' w' ∧ SameRequest s w s' w')
        fun s' w' => Sound config owning locks journals s' w' ∧ SameRequest s w s' w' ∧
          w'.saveFailed = true) s w := by
  unfold Broker.fault
  rw [wp_bind, wp_handleIf_cases, wp_bind]
  refine wp_restore ?_ fun e unknown owned hkept hcancel => ?_
  · refine wp_recordFault (h.restored.fault_added) ⟨rfl, rfl, rfl, rfl, rfl, rfl, rfl, id⟩
  · simp only [outcome_error]
    have hlost := (h.withJournal hkept).unknown unknown
    exact ⟨fun _ => wp_recordFault (hlost.faulted hinstalled rfl)
        ⟨rfl, rfl, rfl, rfl, rfl, rfl, rfl, id⟩,
      fun he => ⟨fun hexception => absurd (he ▸ hexception) nofun,
        fun _ => ⟨hcancel he, hwithin⟩⟩⟩

/-- The rule of restoring a vendor, or recording its fault. -/
theorem wp_recover (h : Steady config owning (vendor :: locks) (vendor :: journals) s w)
    (hwithin : Interlocked config within s w) (hinstalled : vendor ∈ config.vendors) :
    wp (services cancellable) (permitted config guarding) (Broker.recover vendor)
      (Ends config cancellable within
        (fun s' w' => Steady config owning locks journals s' w' ∧ SameRequest s w s' w')
        fun s' w' => Steady config owning locks journals s' w' ∧ SameRequest s w s' w' ∧
          w'.saveFailed = true) s w := by
  unfold Broker.recover
  rw [wp_attempt]
  refine wp_restore ⟨h.restored, rfl, rfl, rfl, rfl, rfl, rfl, rfl, id⟩
    fun e unknown owned hkept hcancel => ?_
  rw [outcome_error]
  refine ⟨fun _ => ?_, fun he => ⟨fun hexception => absurd (he ▸ hexception) nofun,
    fun _ => ⟨hcancel he, hwithin⟩⟩⟩
  have hlost := (h.withJournal hkept).unknown unknown
  have hrestoring : SameRequest s w { s with childOutcomeUnknown := unknown }
    (w.withJournal vendor owned) := ⟨rfl, rfl, rfl, rfl, rfl, rfl, rfl, id⟩
  refine wp_mono (wp_fault hlost hwithin hinstalled) ?_
  rintro (e' | _) s' w' hend
  · refine ⟨fun hexception => ?_, hend.2⟩
    obtain ⟨hsound, hsame, hfailed⟩ := hend.1 hexception
    exact ⟨hsound.toSteady, hrestoring.trans hsame, hfailed⟩
  · exact ⟨hend.1.toSteady, hrestoring.trans hend.2⟩

/-- The rule of the loop that restores every vendor. The vendors still to come may be excepted
from the interlocks (`clears`) and from the journals (`starts`). -/
theorem wp_recover_each (within vendors : List Vendor) (clears starts : Bool)
    (h : Steady config owning (if clears then vendors else []) (if starts then vendors else []) s w)
    (hwithin : clears = true → vendors ⊆ within) (hinstalled : vendors ⊆ config.vendors) :
    wp (services cancellable) (permitted config guarding) (Act.forEach vendors Broker.recover)
      (Ends config cancellable within
        (fun s' w' => Steady config owning [] [] s' w' ∧ SameRequest s w s' w')
        fun s' w' => Steady config owning (if clears then vendors else [])
          (if starts then vendors else []) s' w' ∧ SameRequest s w s' w' ∧ w'.saveFailed = true)
      s w := by
  refine wp_forEach (fun rest s' w' => Steady config owning (if clears then rest else [])
    (if starts then rest else []) s' w' ∧ SameRequest s w s' w' ∧ rest ⊆ vendors)
    ⟨h, .refl s w, fun _ hv => hv⟩ ?_ ?_
  · rintro vendor rest s' w' ⟨hsteady, hsame, hsub⟩
    have hrest : ∀ v ∈ rest, v ∈ vendors := fun v hv => hsub (List.mem_cons_of_mem _ hv)
    have hexcept : Interlocked config within s' w' := by
      refine hsteady.interlocked.mono ?_
      cases clears with
      | false => nofun
      | true => exact fun v hv => hwithin rfl (hsub hv)
    have hsteady' : Steady config owning (vendor :: if clears then rest else [])
        (vendor :: if starts then rest else []) s' w' :=
      hsteady.mono (by cases clears <;> simp) (by cases starts <;> simp)
    refine wp_mono (wp_recover hsteady' hexcept (hinstalled (hsub (by simp)))) ?_
    rintro (e | _) s'' w'' hend
    · refine ⟨fun hexception => ?_, hend.2⟩
      obtain ⟨hsteady'', hsame', hfailed⟩ := hend.1 hexception
      exact ⟨hsteady''.mono (by cases clears <;> simp_all) (by cases starts <;> simp_all),
        hsame.trans hsame', hfailed⟩
    · exact ⟨hend.1, hsame.trans hend.2, hrest⟩
  · rintro s' w' ⟨hsteady, hsame, -⟩
    exact ⟨by simpa using hsteady, hsame⟩

/-- Handing the policy back is permitted when no vendor owns controls or waits. -/
theorem permitted_giveBack {act : PolicyAction} (h : Recovered config [] s w)
    (hpending : s.recoveryPending = ∅) (howned : s.anyOwned config = false) :
    permitted config owning w s (.policy act) := by
  intro _ vendor hvendor
  have hfree : s.owned vendor = false := by
    have hall := List.any_eq_false.mp howned vendor hvendor
    simpa using hall
  refine ⟨hfree, by simp [hpending], ?_⟩
  by_contra hjournal
  have hknown := h vendor hvendor (by simpa using hjournal)
  simp [hfree, hpending] at hknown

/-- The policy helper changes neither journals nor the controls file. -/
theorem World.Policed.frame {act : PolicyAction} {succeeds : Bool} (h : w.Policed act succeeds w') :
    w'.journal = w.journal ∧ w'.saveFailed = w.saveFailed ∧ w'.durable = w.durable := by
  unfold World.Policed at h
  split at h
  · obtain ⟨_, _, _, rfl⟩ := h
    exact ⟨rfl, rfl, rfl⟩
  · split at h
    · obtain ⟨_, _, _, rfl⟩ := h
      exact ⟨rfl, rfl, rfl⟩
    · subst h
      exact ⟨rfl, rfl, rfl⟩

/-- The policy helper may only disturb the ownership of the policy. -/
theorem Steady.policed (h : Steady config owning locks journals s w) {s' : Broker}
    (hworld : w'.journal = w.journal ∧ w'.saveFailed = w.saveFailed ∧ w'.durable = w.durable)
    (howned : s'.owned = s.owned) (hpending : s'.recoveryPending = s.recoveryPending)
    (hfaults : s'.faults = s.faults) (hrelease : s'.policyRelease = s.policyRelease)
    (howner : owning → s.policyRelease = none → Owner config s' w') :
    Steady config owning locks journals s' w' where
  recovered v hv hjournal := by
    rw [howned, hpending]
    exact h.recovered v hv (by rwa [hworld.1] at hjournal)
  interlocked v hv := by
    rw [hfaults, hrelease, hworld.2.1]
    exact h.interlocked v (by rwa [hpending] at hv)
  owner ho hr := howner ho (by rwa [hrelease] at hr)

/-! ### Stopping -/

/-- The memory with which stopping begins. -/
def Broker.stopping (s : Broker) (disable clearFaults : Bool) : Broker :=
  { s with
    toSelection := { s.clearPowerHolds with
      automatic := false
      manual := fun _ => none
      faults := if clearFaults then fun _ => none else s.faults }
    policyRelease := some (if disable then .disable else .stop)
    policyError := "" }

/-- Nothing asks for a profile once tuning is being stopped. -/
theorem Broker.not_asksIntel_stopping {disable clearFaults : Bool}
    (h : SameRequest (s.stopping disable clearFaults) w s' w') : ¬s'.asksIntel config := by
  have hheld : s'.held = false := by
    simp [Selection.held, h.powerHolds, Broker.stopping, Selection.clearPowerHolds]
  simp [Broker.asksIntel, hheld, h.automatic, h.manual, Broker.stopping]

/-- The last part of `Broker.stop_tuning`: hand the policy back, if nothing is owned. -/
private theorem wp_handOver {release : Release} (h : Steady config owning [] [] s w)
    (hrelease : s.policyRelease = some release) (hidle : ¬s.asksIntel config) :
    wp (services cancellable) (permitted config owning)
      (do Act.when (s.recoveryPending = ∅ ∧ s.anyOwned config = false)
            (attempt
              (do Broker.policy release.action
                  Act.modify fun s => { s with policyRelease := none })
              fun exc => Act.modify fun s => { s with policyError := clip exc.text })
          Broker.save)
      (Ends config cancellable within (Sound config owning [] []) (Sound config owning [] []))
      s w := by
  have hsave : ∀ {s' w'}, Steady config owning [] [] s' w' →
      wp (services cancellable) (permitted config owning) Broker.save
        (Ends config cancellable within (Sound config owning [] []) (Sound config owning [] []))
        s' w' :=
    fun hsteady => wp_save_steady within hsteady (fun _ hsound _ => hsound) fun _ _ hsound _ => hsound
  rw [wp_bind, wp_when]
  refine ⟨fun ⟨hpending, howned⟩ => ?_, fun _ => hsave h⟩
  rw [wp_attempt, wp_bind]
  refine wp_policy (permitted_giveBack h.recovered hpending howned) ?_ ?_
  · intro status w' hpoliced _
    -- Nothing is claimed any more, and nothing asks for it.
    have hframe := hpoliced.frame
    have hclaimed : w'.claimed = false := by
      cases release <;> obtain ⟨claimed, -, hdone, rfl⟩ := hpoliced <;> exact hdone rfl nofun
    refine hsave ⟨?_, ?_, fun _ _ => ⟨fun hasks => absurd hasks hidle, fun hc => ?_⟩⟩
    · exact fun v hv hjournal => h.recovered v hv (by rwa [hframe.1] at hjournal)
    · intro v hv
      have hv' : v ∈ s.recoveryPending := hv
      simp [hpending] at hv'
    · rw [hclaimed] at hc
      cases hc
  · intro e unknown w' hw' hcancel
    have hframe : w'.journal = w.journal ∧ w'.saveFailed = w.saveFailed ∧ w'.durable = w.durable := by
      rcases hw' with rfl | hpoliced
      · exact ⟨rfl, rfl, rfl⟩
      · exact hpoliced.frame
    have hsteady : ∀ error, Steady config owning [] []
        { s with childOutcomeUnknown := unknown, policyError := error } w' := fun error =>
      h.policed hframe rfl rfl rfl rfl fun _ hr => absurd (hrelease.symm.trans hr) nofun
    simp only [outcome_error]
    exact ⟨fun _ => hsave (hsteady _), fun he => ⟨fun hexception => absurd (he ▸ hexception) nofun,
      fun _ => ⟨hcancel he, (hsteady s.policyError).interlocked.mono nofun⟩⟩⟩

/-- `Broker.stop_tuning` restores the invariant. -/
theorem wp_stopTuning {disable clearFaults : Bool} (hrecovered : Recovered config [] s w)
    (hlocked : Interlocked config (if clearFaults then config.vendors else []) s w) :
    wp (services cancellable) (permitted config owning)
      (Broker.stopTuning config disable clearFaults)
      (Ends config cancellable (if clearFaults then config.vendors else [])
        (Sound config owning [] []) (Sound config owning [] [])) s w := by
  have hstopping : Steady config owning (if clearFaults then config.vendors else []) []
      (s.stopping disable clearFaults) w := by
    refine ⟨hrecovered, fun v hv => ?_, nofun⟩
    obtain ⟨hin, hexcept⟩ := hlocked v hv
    refine ⟨hin, ?_⟩
    cases clearFaults with
    | true => exact .inl hin
    | false => exact hexcept.imp_right (Or.imp_right fun hsaved => ⟨hsaved.1, rfl⟩)
  have hunlocked : ∀ {s' w'}, SameRequest (s.stopping disable clearFaults) w s' w' →
      Steady config owning (if clearFaults then config.vendors else []) [] s' w' →
      w'.saveFailed = true → Sound config owning [] [] s' w' := by
    intro s' w' hsame hsteady hfailed
    refine ⟨hsteady.unlocked (fun v hv => (hsteady.interlocked v hv).1) hfailed ?_, ?_⟩
    · rw [hsame.policyRelease]
      rfl
    · intro hsaved
      rw [hfailed] at hsaved
      cases hsaved
  unfold Broker.stopTuning
  rw [wp_bind, wp_modify, outcome_ok, wp_bind, wp_modify, outcome_ok,
    wp_bind]
  change wp _ _ Broker.save _ (s.stopping disable clearFaults) w
  refine wp_mono (wp_save_steady (if clearFaults then config.vendors else [])
    (P := fun s' w' => Steady config owning (if clearFaults then config.vendors else []) [] s' w' ∧
      SameRequest (s.stopping disable clearFaults) w s' w' ∧ Synced s' w')
    (R := Sound config owning [] []) hstopping ?_ ?_) ?_
  · rintro w' hsound rfl
    exact ⟨hsound.toSteady, ⟨rfl, rfl, rfl, rfl, rfl, rfl, rfl, fun _ => hsound.synced⟩,
      hsound.synced⟩
  · rintro w' durable hsound rfl
    exact hunlocked ⟨rfl, rfl, rfl, rfl, rfl, rfl, rfl, fun _ => hsound.synced⟩ hsound.toSteady rfl
  · rintro (e | _) s₁ w₁ hsaved
    · exact hsaved
    · obtain ⟨hsteady₁, hsame₁, hsynced₁⟩ := hsaved
      rw [outcome_ok, wp_bind]
      refine wp_mono (wp_recover_each (if clearFaults then config.vendors else [])
        config.vendors clearFaults false hsteady₁ ?_ fun _ hv => hv) ?_
      · rintro rfl
        exact fun _ hv => hv
      rintro (e | _) s₂ w₂ hrestored
      · refine ⟨fun he => ?_, hrestored.2⟩
        obtain ⟨hsteady₂, hsame₂, hfailed⟩ := hrestored.1 he
        exact hunlocked (hsame₁.trans hsame₂) hsteady₂ hfailed
      · obtain ⟨hsteady₂, hsame₂⟩ := hrestored
        have hsame := hsame₁.trans hsame₂
        rw [outcome_ok, wp_bind, wp_get, outcome_ok]
        exact wp_handOver hsteady₂ hsame.policyRelease (Broker.not_asksIntel_stopping hsame)

end Invariant

end Preseed.HardwareTuning
