import Preseed.HardwareTuning.BrokerRequests
import Preseed.HardwareTuning.Leases

/-!
# The invariant of the daemon

Every section under the lock starts from the invariant of the broker and ends in it,
so it holds whenever the lock is free. Only a cancelled monitor may leave less
behind; then the daemon is closing, and nothing but the final restoration follows.
-/

namespace Preseed.HardwareTuning

open Effects

/-- Helpers that may be cancelled may do everything the others may. -/
theorem services_mono {σ : Type} {cancellable cancellable' : Prop} (h : cancellable → cancellable')
    {w w' : World} {s : σ} {op : Service} {r : op.Reply} (hanswer : services cancellable w s op r w') :
    services cancellable' w s op r w' := by
  have hadmitted : ∀ {α : Type} {answer : Child α}, answer.Admitted cancellable →
      answer.Admitted cancellable' := by
    intro α answer hadmitted
    cases answer <;> first | exact h hadmitted | trivial
  cases op with
  | reset | apply | health | report | policy => exact ⟨hadmitted hanswer.1, hanswer.2⟩
  | save | load | seatActive | onAc | autostartLink => exact hanswer

/-- What a section leaves behind. -/
def Task.Post (config : Config) (owning cancellable : Prop) :
    Task → Except Failure Unit → Broker → World → Prop
  | .recoverAll => Raises (fun s w => Sound config False [] [] s w ∧ s.held = false ∧
      s.claimed = w.claimed) (Interlocked config [])
  | .settle => outcome (fun _ => Sound config owning [] []) fun _ => Interlocked config []
  | .prepareHold _ => outcome (fun _ s w => Acquired config owning s w ∧ Synced s w)
      fun _ => Sound config owning [] []
  | .control _ | .granted | .released => fun _ => Sound config owning [] []
  | .tick => Ends config cancellable [] (Sound config owning [] []) (Sound config owning [] [])
  | .shutdown => fun _ => Interlocked config []

/-- A section runs its helpers as permitted, and leaves behind what it should. -/
def Task.Runs (config : Config) (owning cancellable : Prop) (task : Task)
    (p : Program Services Broker (Except Failure Unit × Broker)) (w : World) : Prop :=
  p.Safe (services cancellable) (permitted config owning)
    (fun x w => task.Post config owning cancellable x.1 x.2 w) w

/-- What may be under way in a phase: the startup and the final restoration have the broker to
themselves, and the stop event stays set once the daemon closes. -/
def Phase.Fits (stop : Bool) (task : Option Task) : Phase → Prop
  | .initializing => task = some .recoverAll ∨ task = some .settle
  | .serving | .failed => task ≠ some .recoverAll ∧ task ≠ some .settle ∧ task ≠ some .shutdown
  | .closing => stop = true ∧ task ≠ some .recoverAll ∧ task ≠ some .settle ∧ task ≠ some .shutdown
  | .restoring => stop = true ∧ task = some .shutdown
  | .ended => stop = true ∧ task = none

namespace Daemon

variable {config : Config} {admissible : Broker → World → Prop} {owning : Prop} {d d' : Daemon}

/-- What is under way. -/
def task? (d : Daemon) : Option Task :=
  match d.activity with
  | .idle _ => none
  | .running task _ => some task

theorem task?_idle {s : Broker} (h : d.activity = .idle s) : d.task? = none := by
  unfold task?
  rw [h]

theorem task?_running {task : Task}
    {p : Program Services Broker (Except Failure Unit × Broker)}
    (h : d.activity = .running task p) : d.task? = some task := by
  unfold task?
  rw [h]

/-- The phases of a run are in order. -/
structure Ordered (config : Config) (d : Daemon) : Prop where
  /-- What is under way fits the phase. -/
  fits : d.phase.Fits d.stop d.task?
  /-- Only valid requests wait. -/
  valid : ∀ call ∈ d.waiting, call.valid config = true

section Connections

variable (config d)

/-- Granting a lease and closing a connection leave the lock free, or reconcile. -/
theorem task?_grantLease (s : Broker) (vendor : Vendor) (profile : Profile) :
    (d.grantLease config s vendor profile).task? = none ∨
      (d.grantLease config s vendor profile).task? = some .granted := by
  unfold grantLease
  cases s.grantLease vendor profile with
  | ok s' => exact .inr rfl
  | error e => exact .inl rfl

theorem grantLease_frame (s : Broker) (vendor : Vendor) (profile : Profile) :
    (d.grantLease config s vendor profile).phase = d.phase ∧
      (d.grantLease config s vendor profile).stop = d.stop ∧
      (d.grantLease config s vendor profile).waiting = d.waiting := by
  unfold grantLease
  cases s.grantLease vendor profile <;> exact ⟨rfl, rfl, rfl⟩

theorem task?_release (s : Broker) (lease : Lease) :
    (d.release config s lease).task? = none ∨
      d.stop = false ∧ (d.release config s lease).task? = some .released := by
  unfold release
  cases s.release lease with
  | error e => exact .inl rfl
  | ok s' =>
    by_cases hstop : d.stop = true
    · simp only [if_pos hstop]
      exact .inl rfl
    · simp only [if_neg hstop]
      exact .inr ⟨by simpa using hstop, rfl⟩

theorem release_frame (s : Broker) (lease : Lease) :
    (d.release config s lease).phase = d.phase ∧ (d.release config s lease).stop = d.stop ∧
      (d.release config s lease).waiting = d.waiting := by
  unfold release
  cases s.release lease with
  | error e => exact ⟨rfl, rfl, rfl⟩
  | ok s' =>
    by_cases hstop : d.stop = true
    · simp only [if_pos hstop]
      exact ⟨rfl, rfl, rfl⟩
    · simp only [if_neg hstop]
      exact ⟨rfl, rfl, rfl⟩

end Connections

variable {s : Broker}

/-- A section of a handler or the monitor may begin whenever the daemon serves. -/
private theorem Ordered.serves (h : d.Ordered config) (hidle : d.activity = .idle s)
    (hphase : d.phase ≠ .initializing) (hstop : d.phase = .serving ∨ d.stop = false) :
    d.phase = .serving ∨ d.phase = .failed := by
  have hfits := h.fits
  rw [task?_idle hidle] at hfits
  cases hcase : d.phase with
  | serving => exact .inl rfl
  | failed => exact .inr rfl
  | initializing => exact absurd hcase hphase
  | closing | restoring | ended => simp_all [Phase.Fits]

/-- The phase allows a section of a handler or the monitor, and none. -/
private theorem fits_of_serves (h : d.phase = .serving ∨ d.phase = .failed) {task : Option Task}
    (htask : task ≠ some .recoverAll ∧ task ≠ some .settle ∧ task ≠ some .shutdown) :
    d.phase.Fits d.stop task := by
  rcases h with h | h <;> rw [h] <;> exact htask

variable {task : Task}

/-- A section that ends leaves the lock free, in a phase that is not a startup. -/
private theorem Ordered.left (h : d.Ordered config)
    {p : Program Services Broker (Except Failure Unit × Broker)}
    (hrunning : d.activity = .running task p)
    (htask : task ≠ .recoverAll ∧ task ≠ .settle ∧ task ≠ .shutdown) :
    d.phase.Fits d.stop none ∧ d.phase ≠ .initializing ∧ d.phase ≠ .restoring ∧ d.phase ≠ .ended := by
  have hfits := h.fits
  rw [task?_running hrunning] at hfits
  cases hphase : d.phase <;> simp_all [Phase.Fits]

/-- A section of a handler or the monitor may follow another one. -/
private theorem Ordered.follow (h : d.Ordered config) {task' : Task}
    {p : Program Services Broker (Except Failure Unit × Broker)}
    (hrunning : d.activity = .running task p)
    (htask : task ≠ .recoverAll ∧ task ≠ .settle ∧ task ≠ .shutdown)
    (htask' : task' ≠ .recoverAll ∧ task' ≠ .settle ∧ task' ≠ .shutdown) :
    d.phase.Fits d.stop (some task') := by
  have hfits := h.fits
  rw [task?_running hrunning] at hfits
  cases hphase : d.phase <;> simp_all [Phase.Fits]

/-- A daemon that starts initializes. -/
theorem ordered_boot (w : World) (active : Bool) : (boot config w active).Ordered config :=
  ⟨.inl rfl, nofun⟩

/-- Each step of the daemon keeps the phases in order. -/
theorem Ordered.step (h : d.Ordered config) (hstep : Step config admissible d d') :
    d'.Ordered config := by
  have hfits := h.fits
  cases hstep with
  | connect call hvalid =>
    refine ⟨h.fits, fun other hin => ?_⟩
    rcases List.mem_cons.mp hin with rfl | hin
    · exact hvalid
    · exact h.valid other hin
  | withdraw call => exact ⟨h.fits, fun other hin => h.valid other (List.mem_of_mem_erase hin)⟩
  | signal =>
    refine ⟨?_, h.valid⟩
    change d.phase.Fits true d.task?
    cases hphase : d.phase <;> simp_all [Phase.Fits]
  | answer running answered =>
    refine ⟨?_, h.valid⟩
    rw [task?_running running] at hfits
    exact hfits
  | recovered running =>
    refine ⟨?_, h.valid⟩
    rw [task?_running running] at hfits
    change d.phase.Fits d.stop (some .settle)
    cases hphase : d.phase <;> simp_all [Phase.Fits]
  | startupFailed => exact ⟨⟨rfl, nofun, nofun, nofun⟩, h.valid⟩
  | ready => exact ⟨⟨nofun, nofun, nofun⟩, h.valid⟩
  | accept idle ready running waiting =>
    exact ⟨fits_of_serves (h.serves idle ready (.inr running)) ⟨nofun, nofun, nofun⟩,
      fun other hin => h.valid other (List.mem_of_mem_erase hin)⟩
  | @acceptLease s vendor profile idle ready running waiting =>
    have hserves := h.serves idle ready (.inr running)
    obtain ⟨hphase, hstop, hwaiting⟩ := grantLease_frame config
      { d with waiting := d.waiting.erase (.lease .desktop vendor profile) } s vendor profile
    refine ⟨?_, fun other hin => h.valid other (List.mem_of_mem_erase (hwaiting ▸ hin))⟩
    rw [hphase, hstop]
    refine fits_of_serves (d := d) hserves ?_
    rcases task?_grantLease config
      { d with waiting := d.waiting.erase (.lease .desktop vendor profile) }
      s vendor profile with htask | htask <;> rw [htask] <;> exact ⟨nofun, nofun, nofun⟩
  | acceptHold idle ready running waiting =>
    exact ⟨fits_of_serves (h.serves idle ready (.inr running)) ⟨nofun, nofun, nofun⟩,
      fun other hin => h.valid other (List.mem_of_mem_erase hin)⟩
  | holdPrepared running =>
    exact ⟨h.follow running ⟨nofun, nofun, nofun⟩ ⟨nofun, nofun, nofun⟩, h.valid⟩
  | holdRefused running => exact ⟨(h.left running ⟨nofun, nofun, nofun⟩).1, h.valid⟩
  | @disconnect s lease idle live =>
    obtain ⟨hphase, hstop, hwaiting⟩ := release_frame config d s lease
    refine ⟨?_, fun other hin => h.valid other (hwaiting ▸ hin)⟩
    rw [hphase, hstop]
    rcases task?_release config d s lease with htask | ⟨hrunning, htask⟩ <;>
      rw [htask]
    · rwa [task?_idle idle] at hfits
    · rw [task?_idle idle] at hfits
      cases hcase : d.phase <;> simp_all [Phase.Fits]
  | handled handler running =>
    refine ⟨(h.left running ?_).1, h.valid⟩
    rcases handler with ⟨request, rfl⟩ | rfl | rfl <;> exact ⟨nofun, nofun, nofun⟩
  | tick idle serving =>
    exact ⟨fits_of_serves (.inl serving) ⟨nofun, nofun, nofun⟩, h.valid⟩
  | tickDone running => exact ⟨(h.left running ⟨nofun, nofun, nofun⟩).1, h.valid⟩
  | tickFailed running =>
    refine ⟨?_, h.valid⟩
    have hleft := h.left running ⟨nofun, nofun, nofun⟩
    change (if d.phase = .serving then Phase.failed else d.phase).Fits d.stop none
    split
    · exact ⟨nofun, nofun, nofun⟩
    · exact hleft.1
  | close due =>
    refine ⟨⟨rfl, ?_⟩, h.valid⟩
    rcases due with ⟨hphase, -⟩ | hphase
    all_goals
      rw [hphase] at hfits
      exact hfits
  | shutdown idle closing =>
    rw [closing] at hfits
    exact ⟨⟨hfits.1, rfl⟩, h.valid⟩
  | finished running =>
    rw [task?_running running] at hfits
    have hstop : d.stop = true := by
      cases hcase : d.phase <;> simp_all [Phase.Fits]
    exact ⟨⟨hstop, rfl⟩, h.valid⟩

/-- The phases are in order in every run. -/
theorem Reached.ordered (h : Reached config admissible d) : d.Ordered config := by
  induction h with
  | boot w active => exact ordered_boot w active
  | restart _ w active => exact ordered_boot w active
  | step _ hstep ih => exact ih.step hstep

/-! ### The broker's invariant in a run -/

/-- The invariant of the broker holds while the lock is free, unless the daemon has begun to close,
and a section under the lock will establish it. -/
structure Kept (config : Config) (owning : Prop) (d : Daemon) : Prop where
  /-- The lock is free. -/
  rests : ∀ s, d.activity = .idle s → Interlocked config [] s d.world ∧
    (d.phase = .serving ∨ d.phase = .failed → Sound config owning [] [] s d.world)
  /-- A section holds the lock. Only the monitor may be cancelled, and it is once the daemon
  closes. -/
  runs : ∀ task p, d.activity = .running task p → ∀ cancellable : Prop,
    (cancellable → task = .tick) → (task = .tick ∧ d.phase = .closing → cancellable) →
    task.Runs config owning cancellable p d.world

/-- A section that is never cancelled begins. -/
private theorem Kept.enter {program : BrokerAct Unit}
    (h : wp (services False) (permitted config owning) program (task.Post config owning False) s
      d.world) (htask : task ≠ .tick := by simp) : (d.enter task program s).Kept config owning where
  rests s' hidle := by cases hidle
  runs task' p hrunning cancellable honly _ := by
    cases hrunning
    have hnever : cancellable = False := eq_false fun hc => htask (honly hc)
    rw [hnever]
    exact h

/-- The lock is released. -/
private theorem Kept.idle (hactivity : d.activity = .idle s)
    (hlocked : Interlocked config [] s d.world)
    (hsound : d.phase = .serving ∨ d.phase = .failed → Sound config owning [] [] s d.world) :
    d.Kept config owning where
  rests s' hidle := by
    rw [hactivity] at hidle
    cases hidle
    exact ⟨hlocked, hsound⟩
  runs task p hrunning := by
    rw [hactivity] at hrunning
    cases hrunning

/-- What a finished section has left behind. -/
private theorem Kept.done (h : d.Kept config owning) {x : Except Failure Unit}
    (hrunning : d.activity = .running task (.done (x, s))) (cancellable : Prop)
    (honly : cancellable → task = .tick)
    (hcancel : task = .tick ∧ d.phase = .closing → cancellable) :
    task.Post config owning cancellable x s d.world :=
  h.runs task _ hrunning cancellable honly hcancel

private theorem Kept.finished (h : d.Kept config owning) {x : Except Failure Unit}
    (hrunning : d.activity = .running task (.done (x, s))) (htask : task ≠ .tick := by simp) :
    task.Post config owning False x s d.world :=
  h.done hrunning False False.elim fun hc => htask hc.1

variable {w : World}

/-- The invariant does not see the leases. -/
private theorem sound_leases (h : Sound config owning [] [] s w)
    (leases : Counter (Vendor × Profile)) :
    Sound config owning [] [] { s with leases := leases } w :=
  ⟨⟨h.recovered, h.interlocked, h.owner⟩, h.synced⟩

/-- A reconciliation for a client keeps the invariant. -/
private theorem wp_reconcile_client {health : Bool} (h : Sound config owning [] [] s w) :
    wp (services False) (permitted config owning) (Broker.reconcile config health)
      (fun _ => Sound config owning [] []) s w :=
  wp_mono (wp_reconcile_raises h) fun _ _ _ => Raises.always

/-- The part of a hold request before the grant takes the policy. -/
private theorem wp_prepareHold {peer : Peer} (h : Sound config owning [] [] s w) :
    wp (services False) (permitted config owning) (Broker.prepareHold config peer)
      (outcome (fun _ s' w' => Acquired config owning s' w' ∧ Synced s' w')
        fun _ => Sound config owning [] []) s w := by
  unfold Broker.prepareHold
  split
  · exact h
  rw [wp_bind]
  refine wp_seatActive fun active => ?_
  have hlooked : Sound config owning [] [] s { w with seatLost := w.seatLost || !active } :=
    ⟨⟨h.recovered, h.interlocked, h.owner⟩, h.synced⟩
  rw [outcome_ok]
  split
  · exact hlooked
  · exact wp_preparePowerProfile hlooked

/-- The part of a hold request after the grant keeps the invariant. -/
private theorem wp_reconcileHold {profile : Profile} (h : Acquired config owning s w)
    (hsynced : Synced s w) :
    wp (services False) (permitted config owning) (Broker.reconcileHold config)
      (fun _ => Sound config owning [] []) (s.grantHold profile) w := by
  have hheld : Sound config owning [] [] (s.grantHold profile) w :=
    ⟨h.toSteady.ask rfl rfl rfl rfl fun ho _ _ => .inr (h.owned ho), hsynced⟩
  unfold Broker.reconcileHold
  rw [wp_bind]
  refine wp_mono (wp_reconcile_client hheld) ?_
  rintro (e | _) s' w' hsound
  · exact hsound
  · rw [outcome_ok, wp_bind, wp_get, outcome_ok, wp_when]
    exact ⟨fun _ => hsound, fun _ => hsound⟩

/-- The final restoration keeps the interlocks. -/
private theorem wp_shutdown (h : Interlocked config [] s w) :
    wp (services False) (permitted config owning) (Broker.shutdown config)
      (fun _ => Interlocked config []) s w := by
  refine wp_forEach (fun _ => Interlocked config []) h ?_ fun _ _ hlocked => hlocked
  intro vendor rest s' w' hlocked
  rw [wp_attempt]
  refine wp_restore (fun v hv => ?_) fun e unknown owned _ _ => ?_
  · obtain ⟨hne, hpending⟩ := Finset.mem_erase.mp hv
    simpa [hne, Broker.restored, World.withJournal] using hlocked v hpending
  · rw [outcome_error]
    exact ⟨fun _ => hlocked, fun _ => hlocked⟩

/-- Closing a connection asks for less, since what it held has been counted. -/
private theorem release_keeps (config : Config) (owning : Prop) {s' : Broker} (w : World)
    {lease : Lease} (hbalanced : Balanced d.granted s) (hlive : lease ∈ d.granted)
    (hreleased : s.release lease = .ok s') :
    (Interlocked config [] s w → Interlocked config [] s' w) ∧
      (Sound config owning [] [] s w → Sound config owning [] [] s' w) := by
  cases lease with
  | app vendor profile =>
    simp only [Broker.release, Selection.changeLease] at hreleased
    split at hreleased
    · cases hreleased
    · cases hreleased
      exact ⟨id, fun h => sound_leases h _⟩
  | power profile generation =>
    by_cases hcurrent : generation = s.powerGeneration
    · simp only [Broker.release, hcurrent, if_true] at hreleased
      cases hreleased
      refine ⟨id, fun h => ⟨h.toSteady.ask rfl rfl rfl rfl fun _ _ hasks => .inl ?_, h.synced⟩⟩
      rcases hasks with hauto | hmanual | hheld
      · exact .inl hauto
      · exact .inr (.inl hmanual)
      · -- The profile that is released is held before.
        refine .inr (.inr ?_)
        obtain ⟨other, hother, hsome⟩ := List.any_eq_true.mp hheld
        refine List.any_eq_true.mpr ⟨other, hother, ?_⟩
        by_cases hsame : other = profile
        · have hin : profile ∈ d.granted.filterMap (Lease.holdKey s.powerGeneration) :=
            List.mem_filterMap.mpr ⟨_, hlive, by simp [Lease.holdKey, hcurrent]⟩
          rw [hsame, hbalanced.holds]
          simp [Counter.ofList, List.count_eq_zero, hin]
        · simpa [Counter.put, hsame] using hsome
    · simp only [Broker.release, hcurrent, if_false] at hreleased
      cases hreleased
      exact ⟨id, id⟩

/-- A daemon that starts is going to establish the invariant. -/
private theorem kept_boot (w : World) (active : Bool) :
    (boot config w active).Kept config owning where
  rests s hidle := by cases hidle
  runs task p hrunning cancellable honly _ := by
    cases hrunning
    have hnever : cancellable = False := eq_false fun hc => Task.noConfusion (honly hc)
    rw [hnever]
    exact wp_recoverAll

/-- Each step of the daemon keeps the invariant, if startups are admissible. -/
theorem Kept.step (h : d.Kept config owning) (hordered : d.Ordered config) (haccounted : d.Accounted)
    (hadmissible : owning → ∀ s w, admissible s w → Admissible config s w)
    (hstep : Step config admissible d d') : d'.Kept config owning := by
  have hserving : ∀ {s}, d.activity = .idle s → d.phase ≠ .initializing →
      d.phase = .serving ∨ d.stop = false → Sound config owning [] [] s d.world :=
    fun hidle hphase hstop => (h.rests _ hidle).2 (hordered.serves hidle hphase hstop)
  cases hstep with
  | connect | withdraw | signal => exact ⟨h.rests, h.runs⟩
  | @answer task s op next r w' running answered =>
    refine ⟨fun s hidle => Activity.noConfusion hidle, fun task' p hrunning cancellable honly hcancel => ?_⟩
    cases hrunning
    exact (h.runs task _ running cancellable honly hcancel).2 r w' (services_mono hcancel answered)
  | recovered running admitted =>
    obtain ⟨hsound, hheld, hclaimed⟩ := h.finished running
    exact .enter (wp_settle hsound hheld hclaimed fun ho => hadmissible ho _ _ admitted)
  | startupFailed startup running =>
    refine .idle rfl ?_ fun hphase => ?_
    · rcases startup with rfl | rfl
      · exact (h.finished running).2
      · exact h.finished running
    · rcases hphase with hphase | hphase <;> cases hphase
  | ready running =>
    have hsound : Sound config owning [] [] _ d.world := h.finished running
    exact .idle rfl hsound.interlocked fun _ => hsound
  | accept idle ready running waiting =>
    exact .enter (wp_action (hserving idle ready (.inr running)) (hordered.valid _ waiting))
  | @acceptLease s vendor profile idle ready running waiting =>
    have hsound := hserving idle ready (.inr running)
    obtain ⟨s', hgranted, -⟩ := (memory_idle idle ▸ haccounted.balanced).grantLease vendor profile
    simp only [grantLease, hgranted]
    refine .enter (wp_reconcile_client ?_)
    simp only [Broker.grantLease, Selection.changeLease] at hgranted
    split at hgranted
    · cases hgranted
    · cases hgranted
      exact sound_leases hsound _
  | acceptHold idle ready running waiting =>
    exact .enter (wp_prepareHold (hserving idle ready (.inr running)))
  | holdPrepared running =>
    obtain ⟨hacquired, hsynced⟩ := h.finished running
    exact .enter (wp_reconcileHold hacquired hsynced)
  | holdRefused running =>
    have hsound : Sound config owning [] [] _ d.world := h.finished running
    exact .idle rfl hsound.interlocked fun _ => hsound
  | @disconnect s lease idle live =>
    have hbalanced : Balanced d.granted s := memory_idle idle ▸ haccounted.balanced
    obtain ⟨s', hreleased, -⟩ := hbalanced.release live
    obtain ⟨hlocked, hsound⟩ := release_keeps config owning d.world hbalanced live hreleased
    have hrests := h.rests s idle
    simp only [release, hreleased]
    split
    · exact .idle rfl (hlocked hrests.1) fun hphase => hsound (hrests.2 hphase)
    · rename_i hstop
      refine .enter (wp_reconcile_client (hsound (hrests.2 ?_)))
      have hfits := hordered.fits
      rw [task?_idle idle] at hfits
      cases hcase : d.phase <;> simp_all [Phase.Fits]
  | @handled task x s handler running =>
    have hsound : Sound config owning [] [] s d.world := by
      rcases handler with ⟨request, rfl⟩ | rfl | rfl <;>
        exact h.finished running
    exact .idle rfl hsound.interlocked fun _ => hsound
  | tick idle serving =>
    refine ⟨fun s hidle => Activity.noConfusion hidle, fun task p hrunning cancellable _ _ => ?_⟩
    cases hrunning
    exact wp_reconcile ((h.rests _ idle).2 (.inl serving))
  | tickDone running =>
    have hsound : Sound config owning [] [] _ d.world :=
      h.done running (d.phase = .closing) (fun _ => rfl) (·.2)
    exact .idle rfl hsound.interlocked fun _ => hsound
  | @tickFailed e s running =>
    refine .idle rfl ?_ fun hphase => ?_
    · have hends := h.done running True (fun _ => rfl) fun _ => trivial
      cases he : e.isException with
      | true => exact (hends.1 he).interlocked
      | false => exact (hends.2 he).2
    · have hopen : d.phase ≠ .closing := by
        intro hclosing
        simp [hclosing] at hphase
      have hends : Ends config False [] (Sound config owning [] []) (Sound config owning [] [])
          (Except.error e : Except Failure Unit) s d.world :=
        h.done running False False.elim fun hc => hopen hc.2
      exact hends.raises.always
  | close due =>
    refine ⟨fun s hidle => ⟨(h.rests s hidle).1, fun hphase => ?_⟩,
      fun task p hrunning cancellable honly _ => ?_⟩
    · rcases hphase with hphase | hphase <;> cases hphase
    · refine h.runs task p hrunning cancellable honly fun hc => ?_
      rcases due with ⟨hphase, -⟩ | hphase <;> simp [hphase] at hc
  | shutdown idle closing =>
    exact .enter (wp_shutdown (h.rests _ idle).1)
  | finished running =>
    refine .idle rfl (h.finished running) fun hphase => ?_
    rcases hphase with hphase | hphase <;> cases hphase

/-- The invariant holds in every run. -/
theorem Reached.kept (owning : Prop) (h : Reached config admissible d)
    (hadmissible : owning → ∀ s w, admissible s w → Admissible config s w) :
    d.Kept config owning := by
  induction h with
  | boot w active => exact kept_boot w active
  | restart _ w active => exact kept_boot w active
  | step before hstep ih => exact ih.step before.ordered before.accounted hadmissible hstep

/-- Every operation of a run is permitted. -/
theorem Reached.permitted (owning : Prop) (h : Reached config admissible d)
    (hadmissible : owning → ∀ s w, admissible s w → Admissible config s w) {op : Service}
    (hissued : d.issued? = some (s, op)) : permitted config owning d.world s op := by
  cases hactivity : d.activity with
  | idle s' => simp [issued?, hactivity] at hissued
  | running task p =>
    have hruns := (h.kept owning hadmissible).runs task p hactivity (task = .tick ∧ d.phase = .closing)
      (·.1) id
    cases p with
    | done x => simp [issued?, hactivity, Program.issued?] at hissued
    | call s' op' next =>
      simp only [issued?, hactivity, Program.issued?, Option.some.injEq, Prod.mk.injEq] at hissued
      obtain ⟨rfl, rfl⟩ := hissued
      exact hruns.1

end Daemon

end Preseed.HardwareTuning
