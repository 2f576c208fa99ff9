import Preseed.HardwareTuning.Broker

/-!
# The rules of the broker's operations

One rule for each helper process and file of the broker: what the program has to
show before the operation, and what it may rely on after it. `permitted` is the
condition under which the broker may run a helper.
-/

namespace Preseed.HardwareTuning

open Effects

/-- When a helper may be run. The condition on the ownership of the policy may be assumed away. -/
def permitted (config : Config) (owning : Prop) : Guard Services Broker World := fun w s op =>
  match op with
  | .apply vendor _ =>
    (owning → vendor = .intel → w.claimed = true ∧ w.prepared = true) ∧ s.policyRelease = none ∧
      s.faults vendor = none ∧ vendor ∉ s.recoveryPending ∧
      (w.saveFailed = false → w.savedRelease = none)
  | .policy action => action.givesBack = true →
    ∀ vendor ∈ config.vendors, s.owned vendor = false ∧ vendor ∉ s.recoveryPending ∧
      w.journal vendor = false
  | _ => True

section Rules

variable {config : Config} {owning cancellable : Prop} {s : Broker} {w : World}

/-! ### Helpers and files -/

/-- The rule of `try` and `except Exception`. -/
theorem wp_attempt {E : Environment Services Broker World} {G : Guard Services Broker World}
    (body : BrokerAct Unit) (handler : Failure → BrokerAct Unit)
    {Q : Except Failure Unit → Broker → World → Prop} :
    wp E G (attempt body handler) Q s w ↔
      wp E G body (outcome (fun a => Q (.ok a)) fun e s' w' =>
        (e.isException = true → wp E G (handler e) Q s' w') ∧
          (e.isException = false → Q (.error e) s' w')) s w :=
  wp_handleIf_cases body Failure.isException handler

/-- The rule of a helper process: it has a result, or the program raises. -/
theorem wp_child {α : Type} {E : Environment Services Broker World}
    {G : Guard Services Broker World} {op : BrokerAct (Child α)}
    {Q : Except Failure α → Broker → World → Prop}
    (hunknown : ∀ e, e.isException = true → Q (.error e) s w)
    (hrun : wp E G op (outcome (fun answer s' w' =>
      (∀ result, answer = .ok result → Q (.ok result) s' w') ∧
      ∀ e unknown, answer.succeeds = false →
        (e.isException = false → ∃ started, answer = .cancelled started) →
        Q (.error e) { s' with childOutcomeUnknown := unknown } w')
      fun e => Q (.error e)) s w) :
    wp E G (Broker.child op) Q s w := by
  unfold Broker.child
  rw [wp_bind, wp_get, outcome_ok]
  split
  · exact hunknown _ rfl
  · rw [wp_bind]
    refine wp_mono hrun ?_
    rintro (e | answer) s' w' h
    · exact h
    · cases answer with
      | ok result => exact h.1 result rfl
      | failed text => exact h.2 (tuningError text) s'.childOutcomeUnknown rfl nofun
      | notStarted text => exact h.2 ⟨.osError, text⟩ s'.childOutcomeUnknown rfl nofun
      | lost => exact h.2 (tuningError _) true rfl nofun
      | cancelled started =>
        exact h.2 ⟨.interrupted, ""⟩ (s'.childOutcomeUnknown || started) rfl fun _ => ⟨started, rfl⟩

@[simp] theorem World.withJournal_self (w : World) (vendor : Vendor) :
    w.withJournal vendor (w.journal vendor) = w := by
  simp [World.withJournal]

/-- The rule of a reset. -/
theorem wp_workerReset {vendor : Vendor} {Q : Except Failure Unit → Broker → World → Prop}
    (hok : Q (.ok ()) s (w.withJournal vendor false))
    (herr : ∀ e unknown owned, (owned = true → w.journal vendor = true) →
      (e.isException = false → cancellable) →
      Q (.error e) { s with childOutcomeUnknown := unknown } (w.withJournal vendor owned)) :
    wp (services cancellable) (permitted config owning) (Broker.workerReset vendor) Q s w := by
  refine wp_child (fun e he => ?_) ⟨trivial, ?_⟩
  · simpa [he] using herr e s.childOutcomeUnknown (w.journal vendor) id
  · rintro answer w' ⟨hadmitted, owned, hkept, hdone, rfl⟩
    refine ⟨?_, fun e unknown hfailed hcancelled => herr e unknown owned hkept fun he => ?_⟩
    · rintro result rfl
      rwa [hdone rfl]
    · obtain ⟨started, rfl⟩ := hcancelled he
      exact hadmitted

/-- The rule of an apply. -/
theorem wp_workerApply {vendor : Vendor} {profile : Profile}
    {Q : Except Failure Bool → Broker → World → Prop}
    (hguard : permitted config owning w s (.apply vendor profile))
    (hok : ∀ controls owned, (owned = true → controls = true) →
      Q (.ok controls) s (w.withJournal vendor owned))
    (herr : ∀ e unknown owned, (e.isException = false → cancellable) →
      Q (.error e) { s with childOutcomeUnknown := unknown } (w.withJournal vendor owned)) :
    wp (services cancellable) (permitted config owning) (Broker.workerApply vendor profile) Q
      s w := by
  refine wp_child (fun e he => ?_) ⟨hguard, ?_⟩
  · simpa [he] using herr e s.childOutcomeUnknown (w.journal vendor)
  · rintro answer w' ⟨hadmitted, owned, hkept, rfl⟩
    refine ⟨fun controls hanswer => hok controls owned (hkept controls hanswer),
      fun e unknown hfailed hcancelled => herr e unknown owned fun he => ?_⟩
    obtain ⟨started, rfl⟩ := hcancelled he
    exact hadmitted

/-- The rule of a health check. -/
theorem wp_workerHealth {vendor : Vendor} {Q : Except Failure (List String) → Broker → World → Prop}
    (hok : ∀ conflicts, Q (.ok conflicts) s w)
    (herr : ∀ e unknown, (e.isException = false → cancellable) →
      Q (.error e) { s with childOutcomeUnknown := unknown } w) :
    wp (services cancellable) (permitted config owning) (Broker.workerHealth vendor) Q s w := by
  refine wp_child (fun e he => by simpa [he] using herr e s.childOutcomeUnknown) ⟨trivial, ?_⟩
  rintro answer w' ⟨hadmitted, rfl⟩
  refine ⟨fun conflicts _ => hok conflicts, fun e unknown hfailed hcancelled =>
    herr e unknown fun he => ?_⟩
  obtain ⟨started, rfl⟩ := hcancelled he
  exact hadmitted

/-- The rule of a report. -/
theorem wp_workerReport {vendor : Vendor} {Q : Except Failure Unit → Broker → World → Prop}
    (hok : Q (.ok ()) s w)
    (herr : ∀ e unknown, (e.isException = false → cancellable) →
      Q (.error e) { s with childOutcomeUnknown := unknown } w) :
    wp (services cancellable) (permitted config owning) (Broker.workerReport vendor) Q s w := by
  refine wp_child (fun e he => by simpa [he] using herr e s.childOutcomeUnknown) ⟨trivial, ?_⟩
  rintro answer w' ⟨hadmitted, rfl⟩
  refine ⟨fun _ _ => hok, fun e unknown hfailed hcancelled => herr e unknown fun he => ?_⟩
  obtain ⟨started, rfl⟩ := hcancelled he
  exact hadmitted

/-- The rule of the policy helper. -/
theorem wp_policy {act : PolicyAction} {Q : Except Failure Unit → Broker → World → Prop}
    (hguard : permitted config owning w s (.policy act))
    (hok : ∀ status w', w.Policed act true w' → status.claimed = w'.claimed →
      Q (.ok ()) { s with policyState := some status } w')
    (herr : ∀ e unknown w', w' = w ∨ w.Policed act false w' → (e.isException = false → cancellable) →
      Q (.error e) { s with childOutcomeUnknown := unknown } w') :
    wp (services cancellable) (permitted config owning) (Broker.policy act) Q s w := by
  unfold Broker.policy
  rw [wp_bind]
  refine wp_child (fun e he => ?_) ⟨hguard, ?_⟩
  · rw [outcome_error]
    simpa [he] using herr e s.childOutcomeUnknown w (.inl rfl)
  · rintro answer w' ⟨hadmitted, hreported, hpoliced⟩
    refine ⟨?_, fun e unknown hfailed hcancelled => herr e unknown w' (.inr ?_) fun he => ?_⟩
    · rintro status rfl
      exact hok status w' hpoliced (hreported status rfl)
    · rwa [hfailed] at hpoliced
    · obtain ⟨started, rfl⟩ := hcancelled he
      exact hadmitted

/-- The rule of a save. -/
theorem wp_save {Q : Except Failure Unit → Broker → World → Prop}
    (hok : Q (.ok ()) s { w with durable := some s.controls })
    (herr : ∀ e durable, e.isException = true →
      Q (.error e) s { w with durable := durable, saveFailed := true }) :
    wp (services cancellable) (permitted config owning) Broker.save Q s w := by
  unfold Broker.save
  simp only [wp_bind, wp_get, outcome_ok]
  refine ⟨trivial, ?_⟩
  rintro answer w' (⟨rfl, rfl⟩ | ⟨⟨e, rfl, he⟩, durable, -, rfl⟩)
  · exact hok
  · exact herr e durable he

/-- The rule of a look at the seat. -/
theorem wp_seatActive {Q : Except Failure Bool → Broker → World → Prop}
    (h : ∀ active, Q (.ok active) s { w with seatLost := w.seatLost || !active }) :
    wp (services cancellable) (permitted config owning) Broker.seatActive Q s w := by
  refine ⟨trivial, ?_⟩
  rintro active w' rfl
  exact h active

/-- The rule of a look at the power supply. -/
theorem wp_onAc {Q : Except Failure Bool → Broker → World → Prop} (h : ∀ ac, Q (.ok ac) s w) :
    wp (services cancellable) (permitted config owning) Broker.onAc Q s w := by
  refine ⟨trivial, ?_⟩
  rintro ac w' rfl
  exact h ac

/-- The rule of the autostart preference. -/
theorem wp_autostartEnabled {Q : Except Failure Bool → Broker → World → Prop}
    (h : ∀ enabled, Q (.ok enabled) s w) :
    wp (services cancellable) (permitted config owning) Broker.autostartEnabled Q s w := by
  unfold Broker.autostartEnabled
  rw [wp_bind, wp_get, outcome_ok]
  cases s.policyState with
  | some status => exact h _
  | none =>
    refine ⟨trivial, ?_⟩
    rintro enabled w' rfl
    exact h enabled

/-- The rule of loading the controls file. -/
theorem wp_load {Q : Except Failure Bool → Broker → World → Prop}
    (hnone : w.durable = none → Q (.ok false) s w)
    (hsome : ∀ data active, w.durable = some data →
      Q (.ok true) (s.loaded data active) { w with seatLost := w.seatLost || !active })
    (herr : ∀ e, e.isException = true → Q (.error e) s w) :
    wp (services cancellable) (permitted config owning) Broker.load Q s w := by
  unfold Broker.load
  rw [wp_bind]
  refine ⟨trivial, ?_⟩
  rintro (answer : Except Failure (Option Controls)) w' ⟨rfl, hanswer⟩
  change wp _ _ (Act.lift answer >>= _) Q s w'
  rw [wp_bind, wp_lift]
  rcases hanswer with rfl | ⟨e, rfl, he⟩
  · rw [outcome_ok]
    cases hdurable : w'.durable with
    | none => exact hnone hdurable
    | some data =>
      simp only [wp_bind]
      exact wp_seatActive fun active => hsome data active hdurable
  · exact herr e he

end Rules

end Preseed.HardwareTuning
