import Preseed.HardwareTuning.DaemonInvariant
import Preseed.HardwareTuning.Scenario

/-!
# What holds of every run of the daemon

The policy is owned whenever an Intel profile is applied, if the startups are
admissible; it is handed back only over idle hardware; a vendor that is faulted or
waits for its recovery is not tuned; leases and holds are counted; and nothing is
applied once the final restoration has begun.
-/

namespace Preseed.HardwareTuning

open Effects

/-- A new boot: nothing is owned, nothing is recorded. -/
def World.fresh : World where
  journal _ := false
  claimed := false
  prepared := false
  durable := none
  saveFailed := false
  seatLost := false

namespace Daemon

variable {config : Config} {admissible : Broker → World → Prop} {d d' : Daemon}

/-- A state of some run, whatever the startups find. -/
def Reachable (config : Config) (d : Daemon) : Prop := Reached config (fun _ _ => True) d

/-- A vendor and a profile that is about to be applied to it. -/
def applying? (d : Daemon) : Option (Vendor × Profile) :=
  match d.issued? with
  | some (_, .apply vendor profile) => some (vendor, profile)
  | _ => none

/-- The policy command that is about to be given. -/
def commanding? (d : Daemon) : Option PolicyAction :=
  match d.issued? with
  | some (_, .policy action) => some action
  | _ => none

theorem issued_of_applying {vendor : Vendor} {profile : Profile}
    (h : d.applying? = some (vendor, profile)) :
    ∃ s, d.issued? = some (s, .apply vendor profile) := by
  unfold applying? at h
  split at h
  · rename_i s vendor' profile' hissued
    cases h
    exact ⟨s, hissued⟩
  · cases h

theorem issued_of_commanding {action : PolicyAction} (h : d.commanding? = some action) :
    ∃ s, d.issued? = some (s, .policy action) := by
  unfold commanding? at h
  split at h
  · rename_i s action' hissued
    cases h
    exact ⟨s, hissued⟩
  · cases h

/-- A scenario that is possible, and ends in a state that passes a check, is a run. -/
theorem Reached.of_run (admissible : Broker → World → Prop) {admits : Broker → World → Bool}
    (hadmits : ∀ s w, admits s w = true → admissible s w) {w : World} {active : Bool}
    {events : List Event} {check : Daemon → Bool}
    (h : ((Daemon.boot config w active).run? config admits events).any check = true) :
    ∃ d, Reached config admissible d ∧ check d = true := by
  obtain ⟨d, hrun, hcheck⟩ := (Option.any_eq_true _ _).mp h
  exact ⟨d, (Reached.boot w active).run hadmits hrun, hcheck⟩

/-- A machine with both vendors, balanced by default. -/
def bothVendors : Config where
  vendors := [.intel, .nvidia]
  idleAc := some .balanced
  idleBattery := some .balanced
  customApi := true
  installed := by decide
  nodup := by decide

/-! ### Scenarios -/

/-- The startup takes the policy itself, and applies the idle profile. -/
def autostarting : List Event :=
  let script := { Script.working with autostart := true }
  [.answers script 4, .conclude, .answers script 3]

/-- A startup that cannot recover one vendor goes on to apply an Intel profile without the policy. -/
def halfRecovered : List Event :=
  let failing := { Script.working with
    autostart := true
    fails := fun op => match op with
      | .reset .nvidia => true
      | _ => false }
  [.answers failing 7, .conclude, .answers failing 1, .conclude, .tick, .answers failing 2]

/-- A new boot on which the second vendor is faulted, and cannot be recovered. -/
private def failing (save : Bool) : Script :=
  { Script.working with
    fails := fun op => match op with
      | .reset .nvidia => true
      | .save _ => save
      | _ => false }

/-- Stopping clears the faults, and fails to be saved. -/
def stopUnsaved : List Event :=
  [.answers (failing false) 7, .conclude, .answers (failing false) 1, .conclude,
    .connect (.control .root .autoStop), .accept (.control .root .autoStop),
    .answers (failing true) 1, .conclude]

/-- A desktop user has leased a profile of one vendor and holds a profile of both. -/
def leasing : List Event :=
  let lease := Call.lease .desktop .intel .high
  let hold := Call.hold .desktop .silent
  [.answers .working 9, .conclude, .answers .working 9, .conclude, .connect lease, .accept lease,
    .answers .working 9, .conclude, .connect hold, .accept hold, .answers .working 20, .conclude,
    .answers .working 9, .conclude]

/-- The signal ends a daemon that serves; a client still waits, and the restoration has begun. -/
def closingDown : List Event :=
  let script := { Script.working with autostart := true }
  [.answers script 4, .conclude, .answers script 20, .conclude,
    .connect (.control .root .resume), .signal, .close, .shutdown]

/-- Whatever the startups find, a scenario ends in a state that passes the check. -/
private def Ends (world : World) (scenario : List Event) (check : Daemon → Bool) : Prop :=
  ((Daemon.boot bothVendors world true).run? bothVendors (fun _ _ => true) scenario).any check = true

private theorem Ends.reachable {world : World} {scenario : List Event} {check : Daemon → Bool}
    (h : Ends world scenario check) : ∃ d, Reachable bothVendors d ∧ check d = true :=
  Reached.of_run (fun _ _ => True) (fun _ _ _ => trivial) h

private def waitsUnlocked (d : Daemon) : Bool :=
  match d.activity with
  | .idle s => .nvidia ∈ s.recoveryPending && s.faults .nvidia = none
  | .running _ _ => false

private theorem scenarios_end :
    ((Daemon.boot bothVendors .fresh true).run? bothVendors
      (fun s _ => s.recoveryPending = ∅ && s.automatic) autostarting).any
        (fun d => d.applying? = some (.intel, .balanced)) = true ∧
    Ends .fresh halfRecovered (fun d => d.applying? = some (.intel, .balanced) && !d.world.claimed) ∧
    Ends { World.fresh with claimed := true } [.answers .working 4, .conclude, .answers .working 3]
      (fun d => d.commanding? = some .stop) ∧
    Ends .fresh stopUnsaved waitsUnlocked ∧
    Ends .fresh leasing (fun d =>
      d.granted = [.power .silent d.memory.powerGeneration, .app .intel .high]) ∧
    Ends .fresh closingDown (fun d => d.phase = .restoring && d.waiting ≠ []) := by
  unfold Ends
  decide +kernel

/-! ### The policy is owned for Intel profiles -/

/-- An Intel profile is applied only under an owned policy and without an outstanding handback, in
every run whose startups find the policy owned as they need it. -/
theorem intel_applied_owned {s : Broker} {profile : Profile}
    (h : Reached config (Admissible config) d)
    (hissued : d.issued? = some (s, .apply .intel profile)) :
    d.world.claimed = true ∧ d.world.prepared = true ∧ s.policyRelease = none := by
  have hpermitted := h.permitted True (fun _ _ _ => id) hissued
  obtain ⟨hclaimed, hprepared⟩ := hpermitted.1 trivial rfl
  exact ⟨hclaimed, hprepared, hpermitted.2.1⟩

theorem intel_applied_owned_autostart : ∃ d s, Reached bothVendors (Admissible bothVendors) d ∧
    d.issued? = some (s, .apply .intel .balanced) ∧ d.world.claimed = true ∧
      s.policyRelease = none := by
  obtain ⟨d, hreached, happlying⟩ := Reached.of_run (Admissible bothVendors)
    (fun s w hadmits _ hneeded => by simp_all) scenarios_end.1
  obtain ⟨s, hissued⟩ := issued_of_applying (of_decide_eq_true happlying)
  obtain ⟨hclaimed, -, hrelease⟩ := intel_applied_owned hreached hissued
  exact ⟨d, s, hreached, hissued, hclaimed, hrelease⟩

theorem intel_applied_unowned : ∃ d s, Reachable bothVendors d ∧
    d.issued? = some (s, .apply .intel .balanced) ∧ d.world.claimed = false := by
  obtain ⟨d, hreached, hcheck⟩ := scenarios_end.2.1.reachable
  obtain ⟨happlying, hclaimed⟩ := (Bool.and_eq_true _ _).mp hcheck
  obtain ⟨s, hissued⟩ := issued_of_applying (of_decide_eq_true happlying)
  exact ⟨d, s, hreached, hissued, by simpa using hclaimed⟩

/-! ### The policy is handed back over idle hardware -/

/-- The policy is handed back only when no vendor owns controls or waits for its recovery. -/
theorem policy_handback_idle {s : Broker} {action : PolicyAction} (h : d.Reachable config)
    (hissued : d.issued? = some (s, .policy action)) (hgives : action.givesBack = true) :
    ∀ vendor ∈ config.vendors, s.owned vendor = false ∧ vendor ∉ s.recoveryPending ∧
      d.world.journal vendor = false :=
  h.permitted False nofun hissued hgives

/-- A startup that finds the policy owned, but nothing selected. -/
theorem policy_handback_idle_startup : ∃ d s, Reachable bothVendors d ∧
    d.issued? = some (s, .policy .stop) ∧ s.owned .intel = false ∧
      d.world.journal .nvidia = false := by
  obtain ⟨d, hreached, hcheck⟩ := scenarios_end.2.2.1.reachable
  obtain ⟨s, hissued⟩ := issued_of_commanding (of_decide_eq_true hcheck)
  have hidle := policy_handback_idle hreached hissued rfl
  exact ⟨d, s, hreached, hissued, (hidle .intel (by decide)).1, (hidle .nvidia (by decide)).2.2⟩

/-! ### Vendors that wait for their recovery -/

/-- Memory that moves for a section keeps a fault, unless the section is that of a request which
clears faults. -/
private theorem fault_moves (task : Task) {s s' : Broker} (h : Moves task.clearsFaults s s')
    {vendor : Vendor} (hfault : (s.faults vendor).isSome) :
    (s'.faults vendor).isSome ∨
      ∃ request, some task = some (.control request) ∧ request.clearsFaults = true := by
  cases hclears : task.clearsFaults with
  | false => exact .inl (h.faults hclears vendor hfault)
  | true =>
    cases task with
    | control request => exact .inr ⟨request, rfl, hclears⟩
    | recoverAll | settle | prepareHold | granted | released | tick | shutdown => cases hclears

/-- A fault stays through a step of the daemon, unless an operator request clears it. -/
private theorem fault_stays (haccounted : d.Accounted) (hstep : Step config admissible d d')
    {vendor : Vendor} (hfault : (d.memory.faults vendor).isSome) :
    (d'.memory.faults vendor).isSome ∨
      ∃ request, d'.task? = some (.control request) ∧ request.clearsFaults = true := by
  have hidle : ∀ {s}, d.activity = .idle s → (s.faults vendor).isSome := fun hactivity =>
    memory_idle hactivity ▸ hfault
  have hdone : ∀ {task x s}, d.activity = .running task (.done (x, s)) →
      (s.faults vendor).isSome := fun hactivity => by
    rw [memory_running hactivity] at hfault
    exact hfault
  cases hstep with
  | connect | withdraw | signal | close => exact .inl hfault
  | answer running answered =>
    rw [memory_running running] at hfault
    exact fault_moves _ ((haccounted.follows _ _ running).2 _).memory hfault
  | recovered running => exact fault_moves _ (keeps_settle _).memory (hdone running)
  | startupFailed _ running => exact .inl (hdone running)
  | ready running => exact .inl (hdone running)
  | @accept s peer request idle =>
    exact fault_moves (.control request) (keeps_action request peer s).memory (hidle idle)
  | @acceptLease s selected profile idle =>
    obtain ⟨s', hgranted, -⟩ := (memory_idle idle ▸ haccounted.balanced).grantLease selected profile
    have hbefore : (s.faults vendor).isSome := hidle idle
    have hfault' : (s'.faults vendor).isSome := by
      simp only [Broker.grantLease, Selection.changeLease] at hgranted
      split at hgranted <;> cases hgranted
      exact hbefore
    simp only [grantLease, hgranted]
    exact fault_moves .granted
      (Program.Follows.memory (p := Broker.reconcile config false s') (keeps_reconcile s')) hfault'
  | acceptHold idle => exact fault_moves (.prepareHold _) (keeps_prepareHold _).memory (hidle idle)
  | @holdPrepared profile s running =>
    have hbefore : (s.faults vendor).isSome := hdone running
    exact fault_moves .granted (Program.Follows.memory
      (p := Broker.reconcileHold config (s.grantHold profile)) (keeps_reconcileHold _)) hbefore
  | holdRefused running => exact .inl (hdone running)
  | @disconnect s lease idle live =>
    obtain ⟨s', hreleased, -⟩ := (memory_idle idle ▸ haccounted.balanced).release live
    have hsame : s'.faults = s.faults := by
      cases lease with
      | app selected profile =>
        simp only [Broker.release, Selection.changeLease] at hreleased
        split at hreleased <;> cases hreleased
        rfl
      | power profile generation =>
        simp only [Broker.release] at hreleased
        split at hreleased <;> cases hreleased <;> rfl
    have hfault' : (s'.faults vendor).isSome := by
      rw [hsame]
      exact hidle idle
    simp only [release, hreleased]
    split
    · exact .inl hfault'
    · exact fault_moves .released
        (Program.Follows.memory (p := Broker.reconcile config false s') (keeps_reconcile s')) hfault'
  | handled _ running => exact .inl (hdone running)
  | @tick s idle =>
    exact fault_moves .tick
      (Program.Follows.memory (p := Broker.reconcile config true s) (keeps_reconcile s)) (hidle idle)
  | tickDone running => exact .inl (hdone running)
  | tickFailed running => exact .inl (hdone running)
  | shutdown idle => exact fault_moves .shutdown (keeps_shutdown _).memory (hidle idle)
  | finished running => exact .inl (hdone running)

/-- Whenever the lock is free, a vendor that waits for its recovery is faulted, unless a save has
failed with a handback to be done. A vendor that is faulted or waits for its recovery is never
tuned, and only an operator request clears a fault. -/
theorem recovery_interlocked (h : d.Reachable config) :
    (∀ s, d.activity = .idle s → ∀ vendor ∈ s.recoveryPending,
      (s.faults vendor).isSome ∨ d.world.saveFailed = true ∧ s.policyRelease.isSome) ∧
    (∀ s vendor profile, d.issued? = some (s, .apply vendor profile) →
      s.faults vendor = none ∧ vendor ∉ s.recoveryPending ∧ s.policyRelease = none) ∧
    ∀ d', Step config (fun _ _ => True) d d' → ∀ vendor, (d.memory.faults vendor).isSome →
      (d'.memory.faults vendor).isSome ∨
        ∃ request, d'.task? = some (.control request) ∧ request.clearsFaults = true := by
  refine ⟨fun s hidle vendor hpending => ?_, fun s vendor profile hissued => ?_,
    fun d' hstep vendor => fault_stays h.accounted hstep⟩
  · have hlocked := ((h.kept False nofun).rests s hidle).1 vendor hpending
    simpa using hlocked.2
  · have hpermitted := h.permitted False nofun hissued
    exact ⟨hpermitted.2.2.1, hpermitted.2.2.2.1, hpermitted.2.1⟩

theorem recovery_unlocked : ∃ d s, Reachable bothVendors d ∧ d.activity = .idle s ∧
    .nvidia ∈ s.recoveryPending ∧ s.faults .nvidia = none := by
  obtain ⟨d, hreached, hcheck⟩ := scenarios_end.2.2.2.1.reachable
  unfold waitsUnlocked at hcheck
  split at hcheck
  · rename_i s hidle
    obtain ⟨hpending, hfault⟩ := (Bool.and_eq_true _ _).mp hcheck
    exact ⟨d, s, hreached, hidle, of_decide_eq_true hpending, of_decide_eq_true hfault⟩
  · cases hcheck

/-- The state in which stopping could not be saved. -/
theorem recovery_interlocked_unsaved : ∃ d s, Reachable bothVendors d ∧ d.activity = .idle s ∧
    .nvidia ∈ s.recoveryPending ∧ d.world.saveFailed = true ∧ s.policyRelease.isSome := by
  obtain ⟨d, hreached, hcheck⟩ := scenarios_end.2.2.2.1.reachable
  unfold waitsUnlocked at hcheck
  split at hcheck
  · rename_i s hidle
    obtain ⟨hpending, hfault⟩ := (Bool.and_eq_true _ _).mp hcheck
    have hpending := of_decide_eq_true hpending
    have hfault := of_decide_eq_true hfault
    have hlocked := (recovery_interlocked hreached).1 s hidle .nvidia hpending
    rw [hfault] at hlocked
    obtain hnone | ⟨hfailed, hrelease⟩ := hlocked
    · cases hnone
    · exact ⟨d, s, hreached, hidle, hpending, hfailed, hrelease⟩
  · cases hcheck

/-! ### Leases and holds -/

/-- How often a key is counted, and by which connections. -/
private theorem count_filterMap {κ : Type} [DecidableEq κ] {granted : List Lease}
    {f : Lease → Option κ} {key : κ} {lease : Lease} (h : ∀ other, f other = some key ↔ other = lease) :
    (granted.filterMap f).count key = granted.count lease := by
  rw [List.count_filterMap]
  refine List.countP_congr fun other _ => ?_
  simp [h]

/-- The counts are those of the live connections: leases of all of them, holds of those granted in
the current generation. Closing a connection counts it out and never fails, and closing a hold of
an older generation changes nothing. -/
theorem leases_accounted (h : d.Reachable config) :
    (∀ vendor profile, d.memory.leases.count (vendor, profile) =
      d.granted.count (.app vendor profile)) ∧
    (∀ profile, d.memory.powerHolds.count profile =
      d.granted.count (.power profile d.memory.powerGeneration)) ∧
    ∀ s, d.activity = .idle s → ∀ lease ∈ d.granted, ∃ s', s.release lease = .ok s' ∧
      ∀ profile generation, lease = .power profile generation → generation ≠ s.powerGeneration →
        s' = s := by
  have hbalanced := h.accounted.balanced
  refine ⟨fun vendor profile => ?_, fun profile => ?_, fun s hidle lease hlive => ?_⟩
  · rw [hbalanced.leases, Counter.count_ofList]
    refine congrArg _ (count_filterMap fun other => ?_)
    cases other <;> simp [Lease.appKey]
  · rw [hbalanced.holds, Counter.count_ofList]
    refine congrArg _ (count_filterMap fun other => ?_)
    cases other <;> simp [Lease.holdKey, and_comm]
  · rw [memory_idle hidle] at hbalanced
    obtain ⟨s', hreleased, -⟩ := hbalanced.release hlive
    refine ⟨s', hreleased, fun profile generation hlease hold => ?_⟩
    subst hlease
    simpa [Broker.release, hold, eq_comm] using hreleased

theorem leases_accounted_leasing : ∃ d, Reachable bothVendors d ∧
    d.granted = [.power .silent d.memory.powerGeneration, .app .intel .high] ∧
      d.memory.leases.count (.intel, .high) = 1 ∧ d.memory.powerHolds.count .silent = 1 := by
  obtain ⟨d, hreached, hcheck⟩ := scenarios_end.2.2.2.2.1.reachable
  have hgranted := of_decide_eq_true hcheck
  obtain ⟨hleases, hholds, -⟩ := leases_accounted hreached
  refine ⟨d, hreached, hgranted, ?_, ?_⟩
  · rw [hleases, hgranted]
    rfl
  · rw [hholds, hgranted]
    simp

/-! ### After the final restoration has begun -/

/-- A reset, or nothing that writes hardware. -/
def Service.applies : Service → Bool
  | .apply _ _ => true
  | _ => false

/-- Whatever the helpers answer, a program applies nothing. -/
def AppliesNothing (p : Program Services Broker (Except Failure Unit × Broker)) : Prop :=
  ∀ w : World, p.Safe (fun _ _ _ _ _ => True) (fun _ _ op => Service.applies op = false)
    (fun _ _ => True) w

/-- The final restoration has begun: the daemon ends, and only the restoration may be under way. -/
structure Restores (d : Daemon) : Prop where
  /-- The phase. -/
  phase : d.phase = .restoring ∨ d.phase = .ended
  /-- What is under way applies nothing. -/
  runs : ∀ task p, d.activity = .running task p → AppliesNothing p

/-- The final restoration applies nothing. -/
private theorem shutdown_appliesNothing (s : Broker) : AppliesNothing (Broker.shutdown config s) := by
  intro w
  have hloop : wp (fun _ _ _ _ _ => True) (fun _ _ op => Service.applies op = false)
      (Broker.shutdown config) (fun _ _ _ => True) s w := ?_
  · exact hloop
  refine wp_forEach (fun _ _ _ => True) trivial ?_ fun _ _ _ => trivial
  intro vendor rest s w _
  rw [wp_attempt]
  unfold Broker.restore Broker.workerReset
  rw [wp_bind]
  refine wp_child (fun e _ => ⟨fun _ => trivial, fun _ => trivial⟩) ⟨rfl, ?_⟩
  rintro (answer : Child Unit) w' _
  exact ⟨fun _ _ => trivial, fun _ _ _ _ => ⟨fun _ => trivial, fun _ => trivial⟩⟩

/-- Nothing but the final restoration follows, once it has begun. -/
theorem Restores.step (h : d.Restores) (hordered : d.Ordered config)
    (hstep : Step config admissible d d') : d'.Restores := by
  have hfits := hordered.fits
  have hstopped : d.stop = true := by
    rcases h.phase with hphase | hphase <;> rw [hphase] at hfits <;> exact hfits.1
  have hend : ∀ {task p}, d.activity = .running task p → task = .shutdown := by
    intro task p hrunning
    rw [task?_running hrunning] at hfits
    rcases h.phase with hphase | hphase <;> rw [hphase] at hfits
    · exact Option.some.inj hfits.2
    · cases hfits.2
  cases hstep with
  | connect | withdraw | signal => exact ⟨h.phase, h.runs⟩
  | @answer task s op next r w' running answered =>
    refine ⟨h.phase, fun task' p hrunning w => ?_⟩
    cases hrunning
    exact (h.runs _ _ running w).2 r w trivial
  | recovered running => cases hend running
  | startupFailed startup running =>
    cases hend running
    rcases startup with hstartup | hstartup <;> cases hstartup
  | ready running => cases hend running
  | accept _ _ running => simp [hstopped] at running
  | acceptLease _ _ running => simp [hstopped] at running
  | acceptHold _ _ running => simp [hstopped] at running
  | holdPrepared running => cases hend running
  | holdRefused running => cases hend running
  | @disconnect s lease idle live =>
    obtain ⟨hphase, -, -⟩ := release_frame config d s lease
    refine ⟨by rw [hphase]; exact h.phase, fun task p hrunning => ?_⟩
    rcases task?_release config d s lease with hfree | ⟨hstop, -⟩
    · rw [task?_running hrunning] at hfree
      cases hfree
    · simp [hstopped] at hstop
  | handled handler running =>
    cases hend running
    rcases handler with ⟨_, hhandler⟩ | hhandler | hhandler <;> cases hhandler
  | tick idle serving => rcases h.phase with hphase | hphase <;> simp [hphase] at serving
  | tickDone running => cases hend running
  | tickFailed running => cases hend running
  | close due =>
    rcases h.phase with hphase | hphase <;> simp [hphase] at due
  | shutdown idle closing => rcases h.phase with hphase | hphase <;> simp [hphase] at closing
  | finished running =>
    exact ⟨.inr rfl, fun task p hrunning => Activity.noConfusion hrunning⟩

/-- Beginning the final restoration is the only way into its phases. -/
private theorem Step.begins_restoring (hstep : Step config admissible d d')
    (hordered : d.Ordered config) (hbefore : ¬(d.phase = .restoring ∨ d.phase = .ended))
    (hphase : d'.phase = .restoring ∨ d'.phase = .ended) : d'.Restores := by
  have hfits := hordered.fits
  cases hstep with
  | connect | withdraw | signal => exact absurd hphase hbefore
  | answer | recovered => exact absurd hphase hbefore
  | startupFailed | close => rcases hphase with hphase | hphase <;> cases hphase
  | ready => rcases hphase with hphase | hphase <;> cases hphase
  | accept | acceptHold | holdPrepared | holdRefused => exact absurd hphase hbefore
  | @acceptLease s vendor profile =>
    obtain ⟨hsame, -, -⟩ := grantLease_frame config
      { d with waiting := d.waiting.erase (.lease .desktop vendor profile) } s vendor profile
    rw [hsame] at hphase
    exact absurd hphase hbefore
  | @disconnect s lease =>
    obtain ⟨hsame, -, -⟩ := release_frame config d s lease
    rw [hsame] at hphase
    exact absurd hphase hbefore
  | handled | tick | tickDone => exact absurd hphase hbefore
  | tickFailed =>
    change (if d.phase = .serving then Phase.failed else d.phase) = _ ∨
      (if d.phase = .serving then Phase.failed else d.phase) = _ at hphase
    split at hphase
    · rcases hphase with hphase | hphase <;> cases hphase
    · exact absurd hphase hbefore
  | @shutdown s idle closing =>
    refine ⟨.inl rfl, fun task p hrunning => ?_⟩
    cases hrunning
    exact shutdown_appliesNothing s
  | finished running =>
    rw [task?_running running] at hfits
    cases hcase : d.phase <;> simp_all [Phase.Fits]

theorem Reached.restores (h : Reached config admissible d)
    (hphase : d.phase = .restoring ∨ d.phase = .ended) : d.Restores := by
  induction h with
  | boot | restart => rcases hphase with hphase | hphase <;> cases hphase
  | @step d d' before hstep ih =>
    by_cases hbefore : d.phase = .restoring ∨ d.phase = .ended
    · exact (ih hbefore).step before.ordered hstep
    · exact hstep.begins_restoring before.ordered hbefore hphase

/-- Once the final restoration has begun, nothing is applied any more, whatever clients, helpers
and the monitor do. -/
theorem restoring_applies_nothing (h : d.Reachable config)
    (hphase : d.phase = .restoring ∨ d.phase = .ended)
    (hlater : Relation.ReflTransGen (Step config fun _ _ => True) d d') {s : Broker}
    {vendor : Vendor} {profile : Profile} : d'.issued? ≠ some (s, .apply vendor profile) := by
  have hrestores : d'.Reachable config ∧ d'.Restores := by
    induction hlater with
    | refl => exact ⟨h, h.restores hphase⟩
    | tail _ hstep ih => exact ⟨ih.1.step hstep, ih.2.step ih.1.ordered hstep⟩
  intro hissued
  cases hactivity : d'.activity with
  | idle s' => simp [issued?, hactivity] at hissued
  | running task p =>
    have hnothing := hrestores.2.runs task p hactivity d'.world
    cases p with
    | done x => simp [issued?, hactivity, Program.issued?] at hissued
    | call s' op next =>
      simp only [issued?, hactivity, Program.issued?, Option.some.injEq, Prod.mk.injEq] at hissued
      obtain ⟨rfl, rfl⟩ := hissued
      cases hnothing.1

theorem restoring_applies_nothing_signalled : ∃ d : Daemon, d.Reachable bothVendors ∧
    d.phase = .restoring ∧ d.waiting ≠ [] ∧
      d.issued?.map Prod.snd ≠ some (.apply .intel .balanced) := by
  obtain ⟨d, hreached, hcheck⟩ := scenarios_end.2.2.2.2.2.reachable
  obtain ⟨hphase, hwaiting⟩ := (Bool.and_eq_true _ _).mp hcheck
  have hphase := of_decide_eq_true hphase
  refine ⟨d, hreached, hphase, of_decide_eq_true hwaiting, fun happlied => ?_⟩
  obtain ⟨⟨s, op⟩, hissued, hop⟩ := Option.map_eq_some_iff.mp happlied
  cases hop
  exact restoring_applies_nothing hreached (.inl hphase) .refl hissued

end Daemon

end Preseed.HardwareTuning
