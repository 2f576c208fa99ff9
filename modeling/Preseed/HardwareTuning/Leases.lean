import Preseed.HardwareTuning.BrokerMemory

/-!
# Leases and holds

The broker counts leases and holds where they are granted and where their connection
is closed, and clears all holds at once when the selection changes. `Balanced` says
what the counts are: leases count the live connections, and holds count those that
were granted since the holds were last cleared.
-/

namespace Preseed.HardwareTuning

open Effects

/-- The key a connection counts for in `leases`. -/
def Lease.appKey : Lease → Option (Vendor × Profile)
  | .app vendor profile => some (vendor, profile)
  | .power _ _ => none

/-- The key a connection counts for in `power_holds`, in a generation. -/
def Lease.holdKey (current : ℕ) : Lease → Option Profile
  | .app _ _ => none
  | .power profile generation => if generation = current then some profile else none

/-- The counts are those of the live connections. -/
structure Balanced (granted : List Lease) (s : Broker) : Prop where
  /-- Every live lease is counted. -/
  leases : s.leases = Counter.ofList (granted.filterMap Lease.appKey)
  /-- Every live hold of the current generation is counted. -/
  holds : s.powerHolds = Counter.ofList (granted.filterMap (Lease.holdKey s.powerGeneration))
  /-- No hold is of a later generation. -/
  generations : ∀ profile generation, .power profile generation ∈ granted →
    generation ≤ s.powerGeneration

namespace Balanced

variable {granted : List Lease} {s s' : Broker} {clears : Bool}

theorem empty {s : Broker} (hleases : s.leases = fun _ => none) (hholds : s.powerHolds = fun _ => none) :
    Balanced [] s := by
  constructor <;> simp [hleases, hholds]

/-- No program of the broker unbalances the counts. -/
theorem moves (h : Balanced granted s) (hmoves : Moves clears s s') : Balanced granted s' := by
  rcases hmoves.holds with ⟨hgen, hholds⟩ | ⟨hgen, hholds⟩
  · refine ⟨hmoves.leases.trans h.leases, ?_, fun profile generation hlive => ?_⟩
    · rw [hholds, hgen, h.holds]
    · exact hgen ▸ h.generations profile generation hlive
  · -- No live hold is of the new generation.
    have hnone : granted.filterMap (Lease.holdKey s'.powerGeneration) = [] := by
      refine List.filterMap_eq_nil_iff.mpr fun lease hlive => ?_
      cases lease with
      | app vendor profile => rfl
      | power profile generation =>
        have hle := h.generations profile generation hlive
        simp only [Lease.holdKey]
        rw [if_neg (by omega)]
    refine ⟨hmoves.leases.trans h.leases, ?_, fun profile generation hlive => ?_⟩
    · rw [hholds, hnone, Counter.ofList_nil]
    · exact (h.generations profile generation hlive).trans hgen.le

/-- Granting a lease counts it. -/
theorem grantLease (h : Balanced granted s) (vendor : Vendor) (profile : Profile) :
    ∃ s', s.grantLease vendor profile = .ok s' ∧ Balanced (.app vendor profile :: granted) s' := by
  have hcount : ¬s.leases.count (vendor, profile) + 1 < 0 := by
    rw [h.leases, Counter.count_ofList]
    omega
  refine ⟨_, by simp [Broker.grantLease, Selection.changeLease, hcount]; rfl, ?_, ?_, ?_⟩
  · simp only [List.filterMap_cons, Lease.appKey]
    rw [h.leases, Counter.put_ofList_cons]
  · simpa [List.filterMap_cons, Lease.holdKey] using h.holds
  · intro profile' generation hlive
    exact h.generations profile' generation (by simpa using hlive)

/-- Granting a hold counts it. -/
theorem grantHold (h : Balanced granted s) (profile : Profile) :
    Balanced (.power profile s.powerGeneration :: granted) (s.grantHold profile) where
  leases := h.leases
  holds := by
    simp only [List.filterMap_cons, Lease.holdKey, Broker.grantHold]
    rw [h.holds, Counter.increment_ofList]
    rfl
  generations profile' generation hlive := by
    rcases List.mem_cons.mp hlive with heq | hlive
    · cases heq
      exact le_rfl
    · exact h.generations profile' generation hlive

/-- Closing a connection takes its key out of the keys that are counted. -/
private theorem filterMap_erase {κ : Type} [DecidableEq κ] {f : Lease → Option κ} {lease : Lease}
    (hlive : lease ∈ granted) :
    Counter.ofList ((granted.erase lease).filterMap f) =
      match f lease with
      | some key => (Counter.ofList (granted.filterMap f)).put key
          ((Counter.ofList (granted.filterMap f)).count key - 1)
      | none => Counter.ofList (granted.filterMap f) := by
  have hperm := (List.perm_cons_erase hlive).filterMap f
  cases hkey : f lease with
  | none =>
    rw [List.filterMap_cons_none hkey] at hperm
    exact Counter.ofList_perm hperm.symm
  | some key =>
    rw [List.filterMap_cons_some hkey] at hperm
    have hin : key ∈ granted.filterMap f := hperm.mem_iff.mpr (by simp)
    change _ = (Counter.ofList (granted.filterMap f)).put key _
    rw [Counter.put_ofList_erase hin]
    refine Counter.ofList_perm (.symm ?_)
    simpa using hperm.erase key

/-- Closing a connection counts it out, and never fails. -/
theorem release (h : Balanced granted s) {lease : Lease} (hlive : lease ∈ granted) :
    ∃ s', s.release lease = .ok s' ∧ Balanced (granted.erase lease) s' := by
  have hgenerations : ∀ profile generation, .power profile generation ∈ granted.erase lease →
      generation ≤ s.powerGeneration := fun profile generation hin =>
    h.generations profile generation (List.mem_of_mem_erase hin)
  have happ := filterMap_erase (f := Lease.appKey) hlive
  have hhold := filterMap_erase (f := Lease.holdKey s.powerGeneration) hlive
  cases lease with
  | app vendor profile =>
    have hcount : ¬s.leases.count (vendor, profile) + -1 < 0 := by
      have hin : (vendor, profile) ∈ granted.filterMap Lease.appKey :=
        List.mem_filterMap.mpr ⟨_, hlive, rfl⟩
      have hpositive := Counter.count_ofList_pos hin
      rw [h.leases]
      omega
    refine ⟨{ s with leases := s.leases.put (vendor, profile) (s.leases.count (vendor, profile) + -1) },
      by simp [Broker.release, Selection.changeLease, hcount, Except.map], ?_, ?_, hgenerations⟩
    · rw [happ, h.leases]
      rfl
    · rw [hhold]
      exact h.holds
  | power profile generation =>
    by_cases hcurrent : generation = s.powerGeneration
    · refine ⟨{ s with powerHolds := s.powerHolds.put profile (s.powerHolds.count profile - 1) },
        by simp [Broker.release, hcurrent], ?_, ?_, hgenerations⟩
      · rw [happ]
        exact h.leases
      · rw [hhold]
        simp [Lease.holdKey, hcurrent, h.holds]
    · refine ⟨s, by simp [Broker.release, hcurrent], ?_, ?_, hgenerations⟩
      · rw [happ]
        exact h.leases
      · rw [hhold]
        simpa [Lease.holdKey, hcurrent] using h.holds

end Balanced

/-- The sections that may clear a fault are those of the explicit operator actions. -/
def Task.clearsFaults : Task → Bool
  | .control request => request.clearsFaults
  | _ => false

namespace Daemon

variable {config : Config} {admissible : Broker → World → Prop} {d d' : Daemon}

/-- The counts are balanced, and the program under the lock will keep them so. -/
structure Accounted (d : Daemon) : Prop where
  /-- The counts are those of the live connections. -/
  balanced : Balanced d.granted d.memory
  /-- The memory moves as the broker's programs move it. -/
  follows : ∀ task p, d.activity = .running task p → p.Follows (Moves task.clearsFaults) p.memory

/-- A program of the broker can be entered from balanced counts. -/
private theorem Accounted.enter {task : Task} {program : BrokerAct Unit} {s : Broker}
    (hbalanced : Balanced d.granted s) (hkeeps : Act.Keeps (Moves task.clearsFaults) program) :
    (d.enter task program s).Accounted where
  balanced := hbalanced.moves (hkeeps s).memory
  follows task' p hrunning := by
    cases hrunning
    have hfollows := hkeeps s
    cases hfirst : program s with
    | done x => exact refl_of _ _
    | call s' op next =>
      rw [hfirst] at hfollows
      exact ⟨refl_of _ _, hfollows.2⟩

private theorem Accounted.idle {s : Broker} (hbalanced : Balanced d.granted s)
    (hactivity : d.activity = .idle s) : d.Accounted where
  balanced := by
    unfold memory
    rw [hactivity]
    exact hbalanced
  follows task p hrunning := by
    rw [hactivity] at hrunning
    cases hrunning

/-- A daemon that starts has no connections. -/
theorem accounted_boot (w : World) (active : Bool) : (boot config w active).Accounted := by
  have hfollows := follows_recoverAll config active
  refine ⟨Balanced.moves (Balanced.empty rfl rfl) hfollows.memory, ?_⟩
  rintro task p hrunning
  cases hrunning
  cases hfirst : Broker.recoverAll config (.initial active) with
  | done x => exact refl_of _ _
  | call s op next =>
    rw [hfirst] at hfollows
    exact ⟨refl_of _ _, hfollows.2⟩

/-- The memory when a section is idle or finished. -/
theorem memory_idle {s : Broker} (h : d.activity = .idle s) : d.memory = s := by
  unfold memory
  rw [h]

theorem memory_running {task : Task} {p : Program Services Broker (Except Failure Unit × Broker)}
    (h : d.activity = .running task p) : d.memory = p.memory := by
  unfold memory
  rw [h]

/-- Each step of the daemon keeps the counts balanced. -/
theorem Accounted.step (h : d.Accounted) (hstep : Step config admissible d d') : d'.Accounted := by
  have hidle : ∀ {s}, d.activity = .idle s → Balanced d.granted s := fun hactivity =>
    memory_idle hactivity ▸ h.balanced
  have hdone : ∀ {task x s}, d.activity = .running task (.done (x, s)) → Balanced d.granted s :=
    fun hactivity => by
      have hbalanced := h.balanced
      rw [memory_running hactivity] at hbalanced
      exact hbalanced
  cases hstep with
  | connect => exact ⟨h.balanced, h.follows⟩
  | withdraw => exact ⟨h.balanced, h.follows⟩
  | signal => exact ⟨h.balanced, h.follows⟩
  | close => exact ⟨h.balanced, h.follows⟩
  | @answer task s op next r w' running answered =>
    have hfollows := (h.follows _ _ running).2 r
    refine ⟨(memory_running running ▸ h.balanced).moves hfollows.memory, ?_⟩
    rintro task' p hrunning
    cases hrunning
    cases hnext : next r with
    | done x => exact refl_of _ _
    | call s' op' next' =>
      rw [hnext] at hfollows
      exact ⟨refl_of _ _, hfollows.2⟩
  | recovered running => exact .enter (hdone running) keeps_settle
  | startupFailed _ running => exact .idle (hdone running) rfl
  | ready running => exact .idle (hdone running) rfl
  | @accept s peer request idle => exact .enter (hidle idle) (keeps_action request peer)
  | @acceptLease s vendor profile idle =>
    obtain ⟨s', hgranted, hbalanced⟩ := (hidle idle).grantLease vendor profile
    simp only [grantLease, hgranted]
    exact .enter hbalanced keeps_reconcile
  | acceptHold idle => exact .enter (hidle idle) keeps_prepareHold
  | @holdPrepared profile s running =>
    exact .enter ((hdone running).grantHold profile) keeps_reconcileHold
  | holdRefused running => exact .idle (hdone running) rfl
  | @disconnect s lease idle live =>
    obtain ⟨s', hreleased, hbalanced⟩ := (hidle idle).release live
    simp only [release, hreleased]
    split
    · exact .idle hbalanced rfl
    · exact .enter hbalanced keeps_reconcile
  | handled _ running => exact .idle (hdone running) rfl
  | tick idle => exact .enter (hidle idle) keeps_reconcile
  | tickDone running => exact .idle (hdone running) rfl
  | tickFailed running => exact .idle (hdone running) rfl
  | shutdown idle => exact .enter (hidle idle) keeps_shutdown
  | finished running => exact .idle (hdone running) rfl

/-- The counts are balanced in every run. -/
theorem Reached.accounted (h : Reached config admissible d) : d.Accounted := by
  induction h with
  | boot w active => exact accounted_boot w active
  | restart _ w active => exact accounted_boot w active
  | step _ hstep ih => exact ih.step hstep

end Daemon

end Preseed.HardwareTuning
