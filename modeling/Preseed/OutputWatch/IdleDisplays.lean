import Preseed.OutputWatch.Markers

/-!
# Idle displays

A run keeps the snapshot, changes the geometry only after a wake, changes outputs only under the
pause marker, and does not leave that marker behind.
-/

namespace Preseed.OutputWatch

open Effects Triple

variable {τ : Type} {policy : Option Bool}

/-- A predicate that the pause marker does not change. -/
def Unpaused (P : Markers τ → Prop) : Prop := ∀ w, P w → P { w with pause := true }

/-- A predicate that a look at the session does not change. -/
def Watched (P : Markers τ → Prop) : Prop := ∀ w b, P w → P { w with inactive := b }

/-- A predicate that a failure to resume does not change. -/
def Tried (P : Markers τ → Prop) : Prop := ∀ w b, P w → P { w with stuck := b }

section Rules

variable {P R : Markers τ → Prop}

theorem spec_sessionIsActive (hP : Watched P) :
    Spec policy P (ask .sessionIsActive)
      (fun active w => P w ∧ (active = false → w.inactive = true)) R := by
  refine Spec.ask (fun _ _ => trivial) ?_
  rintro w answer w' hw ⟨active, rfl, rfl⟩ -
  refine ⟨hP w _ hw, ?_⟩
  rintro rfl
  rfl

theorem spec_idleTopologyActive :
    Spec policy P (ask .idleTopologyActive)
      (fun idle w => P w ∧ w.snapshot.isSome = idle) R := by
  refine Spec.ask (fun _ _ => trivial) ?_
  rintro w answer w' hw ⟨rfl, rfl⟩ -
  exact ⟨hw, rfl⟩

theorem spec_restoreRequested :
    Spec policy P (ask .restoreRequested) (fun requested w => P w ∧ w.request = requested) R := by
  refine Spec.ask (fun _ _ => trivial) ?_
  rintro w answer w' hw ⟨rfl, rfl⟩ -
  exact ⟨hw, rfl⟩

theorem spec_publishPause (hP : Unpaused P) :
    Spec policy P (ask .publishPause) (fun ok w => P w ∧ (ok = true → w.pause = true)) P := by
  refine Spec.ask (fun _ _ => trivial) ?_
  rintro w answer w' hw (rfl | ⟨hfailed, rfl⟩) -
  · cases answer with
    | ok b => exact ⟨hP w hw, fun _ => rfl⟩
    | error e => exact hP w hw
  · cases answer with
    | ok b =>
      refine ⟨hw, ?_⟩
      rintro rfl
      exact (hfailed rfl).elim
    | error e => exact hw

variable {question : Ask τ}

/-- The rule of a question that touches no marker file. -/
theorem spec_still (hdoes : ∀ w answer w', question.does w answer w' → w' = w)
    (hpermitted : ∀ w : Markers τ, Permitted policy w () (.ask question)) (hR : ∀ w, P w → R w) :
    Spec policy P (ask question) (fun _ => P) R :=
  Spec.still hdoes (fun w _ => hpermitted w) hR

theorem spec_stillOf {P' : Markers τ → Prop}
    (hdoes : ∀ w answer w', question.does w answer w' → w' = w)
    (hpermitted : ∀ w : Markers τ, Permitted policy w () (.ask question)) (hP : ∀ w, P' w → P w)
    (hR : ∀ w, P w → R w) :
    Spec policy P' (ask question) (fun _ => P) R :=
  (spec_still hdoes hpermitted hR).mono hP (fun _ _ => id) fun _ => id

theorem spec_stillOrDie (hdoes : ∀ w answer w', question.does w answer w' → w' = w)
    (hpermitted : ∀ w : Markers τ, Permitted policy w () (.ask question)) (hR : ∀ w, P w → R w) :
    Spec policy P (orDie (ask question)) (fun _ => P) R :=
  Spec.orDie ((spec_still hdoes hpermitted hR).mono (fun _ => id)
    (fun _ w hw => ⟨fun _ => hw, fun _ => hR w hw⟩) fun _ => id)

/-- The rule of a step of `resume_output_authority` that must succeed. -/
theorem spec_tried (hP : Tried P)
    (hdoes : ∀ w answer w', question.does w answer w' → w' = w.tried answer)
    (hpermitted : ∀ w : Markers τ, Permitted policy w () (.ask question)) :
    Spec policy P (ask question) (fun ok w => P w ∧ (ok = false → w.stuck = true))
      (fun w => P w ∧ w.stuck = true) := by
  refine Spec.ask (fun w _ => hpermitted w) fun w answer w' hw h _ => ?_
  obtain rfl := hdoes w answer w' h
  have hkept : P (w.tried answer) := hP w _ hw
  cases answer with
  | ok b =>
    refine ⟨hkept, ?_⟩
    rintro rfl
    simp [Markers.tried, failed]
  | error e =>
    have hstuck : (w.tried (.error e)).stuck = true := by simp [Markers.tried, failed]
    exact ⟨hkept, hstuck⟩

theorem spec_triedOrDie (hP : Tried P)
    (hdoes : ∀ w answer w', question.does w answer w' → w' = w.tried answer)
    (hpermitted : ∀ w : Markers τ, Permitted policy w () (.ask question)) :
    Spec policy P (orDie (ask question)) (fun _ => P) (fun w => P w ∧ w.stuck = true) :=
  Spec.orDie ((spec_tried hP hdoes hpermitted).mono (fun _ => id)
    (fun _ _ hw => ⟨fun _ => hw.1, fun hok => ⟨hw.1, hw.2 hok⟩⟩) fun _ => id)

/-- The rule of `kanshi_is_configured`. -/
theorem spec_kanshiIsConfigured (hR : ∀ w, P w → R w) :
    Spec policy P (kanshiIsConfigured policy)
      (fun configured w => P w ∧ policy = some configured) R := by
  cases policy with
  | none => exact .raise hR
  | some configured => exact .pure fun w hw => ⟨hw, rfl⟩

/-- The rule of `pause_output_authority`. -/
theorem spec_pauseOutputAuthority (hP : Unpaused P) (htried : Tried P) (hR : ∀ w, P w → R w) :
    Spec policy P (pauseOutputAuthority policy) (fun _ w => P w ∧ Paused policy w) R := by
  refine .bind (spec_kanshiIsConfigured hR) fun configured => .ite (fun _ => ?_) fun hno => ?_
  · have htry : Spec policy P (orDie (ask (.findCommand .systemctl))) (fun _ => P)
        (fun w => P w ∧ w.stuck = true) :=
      spec_triedOrDie htried (fun _ _ _ h => h) fun _ => trivial
    have hfind := htry.mono (fun _ => id) (fun _ _ => id) fun w hw => hR w hw.1
    have hpublish : Spec policy P (orDie (ask .publishPause)) (fun _ w => P w ∧ w.pause = true) R :=
      Spec.orDie ((spec_publishPause hP).mono (fun _ => id)
        (fun _ w hw => ⟨fun hok => ⟨hw.1, hw.2 hok⟩, fun _ => hR w hw.1⟩) hR)
    have hstop : Spec policy (fun w => P w ∧ w.pause = true) (orDie (ask .stopKanshi))
        (fun _ w => P w ∧ w.pause = true) R :=
      spec_stillOrDie (fun _ _ _ h => h) (fun _ => trivial) fun w hw => hR w hw.1
    exact (bind hfind fun _ => bind hpublish fun _ => hstop).mono (fun _ hw => hw.1)
      (fun _ w hw => ⟨hw.1, fun _ => hw.2⟩) fun _ => id
  · refine .pure fun w hw => ⟨hw.1, fun hyes => ?_⟩
    exact (hno (Option.some.inj (hw.2.symm.trans hyes))).elim

/-- The rule of `clear_idle_topology`. -/
theorem spec_clearIdleTopology (hsnapshot : ∀ w, P w → P { w with snapshot := none })
    (hrequest : ∀ w, P w → P { w with request := false }) :
    Spec policy P clearIdleTopology (fun _ => P) R := by
  refine .bind (Spec.call (Q := fun _ => P) (Spec.ask (fun _ _ => trivial) ?_)) fun _ =>
    Spec.call (Q := fun _ => P) (Spec.ask (fun _ _ => trivial) ?_)
  · rintro w answer w' hw ⟨⟨b, rfl⟩, rfl | rfl⟩ -
    · exact hsnapshot w hw
    · exact hw
  · rintro w answer w' hw ⟨⟨b, rfl⟩, rfl | rfl⟩ -
    · exact hrequest w hw
    · exact hw

/-- The rule of an output transaction, which leaves the marker files as they are. -/
theorem spec_transaction {transaction : Ask τ} (hP : Watched P)
    (hdoes : ∀ w answer w', transaction.does w answer w' → w' = w)
    (hpermitted : ∀ w, P w → Permitted policy w () (.ask transaction)) (hR : ∀ w, P w → R w) :
    Spec policy P (applyOutputTransaction transaction) (fun _ => P) R := by
  refine .bind (spec_sessionIsActive hP) fun active => .ite (fun _ => ?_) fun _ => ?_
  · exact .pure fun _ hw => hw.1
  · exact (Spec.still hdoes hpermitted hR).mono (fun _ hw => hw.1) (fun _ _ => id) fun _ => id

theorem spec_runWlopm (on : Bool) (hP : Watched P) (hpaused : ∀ w, P w → Paused policy w)
    (hR : ∀ w, P w → R w) : Spec policy P (runWlopm on) (fun _ => P) R := by
  refine .bind (Spec.still (fun _ _ _ h => h) (fun _ _ => trivial) hR) fun found =>
    ite (fun _ => ?_) fun _ => .pure fun _ hw => hw
  exact spec_transaction hP (fun _ _ _ h => h) hpaused hR

end Rules

section Modes

/-- The state of a restoration: the request stands, and outputs are paused. -/
def Restoring (policy : Option Bool) (w : Markers τ) : Prop :=
  Requested w ∧ Paused policy w ∧ w.request = true

theorem requested_clear (w : Markers τ) :
    Requested ({ w with snapshot := none } : Markers τ) ∧
      Requested ({ w with request := false } : Markers τ) := by
  constructor
  · rintro - hsome
    cases hsome
  · intro hrequest
    cases hrequest

theorem watched_restoring : Watched (Restoring (τ := τ) policy) :=
  fun _ _ h => ⟨h.1, h.2.1, h.2.2⟩

theorem spec_clearRequested :
    Spec policy (Requested (τ := τ)) clearIdleTopology (fun _ => Requested) Requested :=
  spec_clearIdleTopology (fun w _ => (requested_clear w).1) fun w _ => (requested_clear w).2

theorem spec_applyIdleTopology :
    Spec policy (Restoring (τ := τ) policy) applyIdleTopology (fun _ => Restoring policy)
      Requested := by
  refine .bind (spec_still (fun _ _ _ h => h) (fun _ => trivial) fun _ hw => hw.1) fun exist =>
    ite (fun _ => .pure fun _ hw => hw) fun _ => ?_
  refine .bind (spec_still (fun _ _ _ h => h) (fun _ => trivial) fun _ hw => hw.1) fun same =>
    ite (fun _ => .pure fun _ hw => hw) fun _ => ?_
  exact spec_transaction watched_restoring (fun _ _ _ h => h)
    (fun w hw => ⟨hw.1 hw.2.2, hw.2.1⟩) fun _ hw => hw.1

variable {reconcile : RefreshAct τ Bool}

/-- The rule of the rest of `restore_idle_topology`. -/
theorem spec_restoreOutputs
    (hreconcile : Spec policy Requested reconcile (fun _ => Requested) Requested) :
    Spec policy (Restoring policy) (restoreOutputs reconcile) (fun _ => Requested) Requested := by
  refine .bind (spec_still (fun _ _ _ h => h) (fun _ => trivial) fun _ hw => hw.1)
    fun present => .ite (fun _ => ?_) fun _ => ?_
  · refine .bind (Spec.capture fun _ hw => hw.1) fun current => ?_
    cases current with
    | none => exact .pure fun _ hw => hw.1
    | some topology =>
      exact .bind (spec_clearRequested.mono (fun _ hw => hw.1) (fun _ _ => id) fun _ => id)
        fun _ => .bind hreconcile fun _ => .pure fun _ => id
  · refine .bind spec_applyIdleTopology fun applied => .ite (fun _ => ?_) fun _ => ?_
    · exact .pure fun _ hw => hw.1
    refine .bind (spec_still (fun _ _ _ h => h) (fun _ => trivial) fun _ hw => hw.1)
      fun committed => .ite (fun _ => .pure fun _ hw => hw.1) fun _ => ?_
    refine .bind (Spec.call (Q := fun _ => Restoring policy)
      (spec_still (fun _ _ _ h => h) (fun _ => trivial) fun _ hw => hw.1)) fun _ => ?_
    exact .bind (spec_clearRequested.mono (fun _ hw => hw.1) (fun _ _ => id) fun _ => id)
      fun _ => .pure fun _ => id

theorem spec_restoreIdleTopology
    (hreconcile : Spec policy Requested reconcile (fun _ => Requested) Requested) :
    Spec policy (fun w => Requested w ∧ Paused policy w) (restoreIdleTopology reconcile)
      (fun _ => Requested) Requested := by
  refine .bind spec_restoreRequested fun requested => .ite (fun _ => ?_) fun hrequested => ?_
  · exact .pure fun _ hw => hw.1.1
  have hrestoring : ∀ w : Markers τ, (Requested w ∧ Paused policy w) ∧ w.request = requested →
      Restoring policy w := fun w hw =>
    ⟨hw.1.1, hw.1.2, hw.2.trans (Bool.not_eq_false _ ▸ hrequested)⟩
  refine .bind (Q := fun _ => Restoring policy)
    ((Spec.load fun _ hw => hw.1).mono hrestoring (fun _ _ => id) fun _ => id) fun saved => ?_
  cases saved with
  | none =>
    exact .bind (spec_clearRequested.mono (fun _ hw => hw.1) (fun _ _ => id) fun _ => id)
      fun _ => .raise fun _ => id
  | some topology => exact spec_restoreOutputs hreconcile

theorem spec_restoreMode
    (hreconcile : Spec policy Requested reconcile (fun _ => Requested) Requested) :
    Spec policy Requested (restoreMode policy reconcile) (fun _ => Requested) Requested := by
  refine .bind spec_restoreRequested fun requested =>
    ite (fun _ => .pure fun _ hw => hw.1) fun _ => ?_
  refine .bind ((spec_pauseOutputAuthority (fun _ h => h) (fun _ _ h => h) fun _ => id).mono (fun _ hw => hw.1)
    (fun _ _ => id) fun _ => id) fun _ => ?_
  refine .bind (spec_still (fun _ _ _ h => h) (fun _ => trivial) fun _ hw => hw.1) fun found =>
    ite (fun _ => .pure fun _ hw => hw.1) fun _ => ?_
  refine .bind (spec_still (fun _ _ _ h => h) (fun _ => trivial) fun _ hw => hw.1) fun ready =>
    ite (fun _ => .pure fun _ hw => hw.1) fun _ => ?_
  exact spec_restoreIdleTopology hreconcile

theorem requested_of_none (w : Markers τ) (h : w.snapshot = none) : Requested w := by
  intro _ hsome
  rw [h] at hsome
  cases hsome

/-- There is no snapshot, and the outputs are paused. -/
def Awake (policy : Option Bool) (w : Markers τ) : Prop := w.snapshot = none ∧ Paused policy w

variable {w : Markers τ}

theorem Awake.requested (h : Awake policy w) : Requested w :=
  requested_of_none w h.1

/-- The rule of `capture_idle_topology`: the snapshot is new, and no request is left over. -/
theorem spec_captureIdleTopology :
    Spec policy (Awake (τ := τ) policy) captureIdleTopology
      (fun _ w => Requested w ∧ Paused policy w) Requested := by
  have hboth : ∀ w : Markers τ, Awake policy w → Requested w ∧ Paused policy w :=
    fun w hw => ⟨hw.requested, hw.2⟩
  refine .bind spec_idleTopologyActive fun idle =>
    ite (fun _ => .pure fun w hw => hboth w hw.1) fun _ => ?_
  refine .bind (Q := fun _ => Awake policy) ((Spec.capture fun _ hw => hw.requested).mono
    (fun _ hw => hw.1) (fun _ _ => id) fun _ => id) fun state => ?_
  cases state with
  | none => exact .pure hboth
  | some topology =>
    refine .bind (spec_still (fun _ _ _ h => h) (fun _ => trivial) fun _ hw => hw.requested)
      fun complete => .ite (fun _ => ?_) fun _ => .pure hboth
    refine Spec.ask (fun _ hw => hw.1) ?_
    rintro w answer w' hw hdoes hfresh
    have hrequest := hfresh topology rfl
    have hfresh' : Requested w' ∧ Paused policy w' := by
      rcases hdoes with rfl | ⟨-, rfl⟩
      · refine ⟨fun hstale => ?_, hw.2⟩
        rw [hrequest] at hstale
        cases hstale
      · exact hboth _ hw
    cases answer with
    | ok b => exact hfresh'
    | error e => exact hfresh'.1

theorem watched_requested : Watched fun w : Markers τ => Requested w ∧ Paused policy w :=
  fun _ _ h => h

theorem spec_dpmsOffMode :
    Spec policy (Requested (τ := τ)) (dpmsOffMode policy) (fun _ => Requested) Requested := by
  refine .bind spec_idleTopologyActive fun idle =>
    ite (fun _ => .pure fun _ hw => hw.1) fun hidle => ?_
  have hnone : ∀ w : Markers τ, Requested w ∧ w.snapshot.isSome = idle → w.snapshot = none := by
    intro w hw
    rw [Bool.not_eq_true] at hidle
    subst hidle
    exact Option.isNone_iff_eq_none.1 (by simpa using hw.2)
  refine .bind (Q := fun _ => Awake policy)
    ((spec_pauseOutputAuthority (P := fun w => w.snapshot = none) (fun _ h => h)
      (fun _ _ h => h) requested_of_none).mono hnone
      (fun _ _ => id) fun _ => id) fun _ => ?_
  refine .bind (spec_still (fun _ _ _ h => h) (fun _ => trivial) fun _ hw => hw.requested)
    fun ready => .ite (fun _ => .pure fun _ hw => hw.requested) fun _ => ?_
  refine .bind (spec_stillOrDie (fun _ _ _ h => h) (fun _ => trivial)
    fun _ hw => hw.requested) fun _ => ?_
  refine .bind (Q := fun _ w => Requested w ∧ Paused policy w)
    (Spec.orDie (spec_captureIdleTopology.mono (fun _ => id)
      (fun _ w hw => ⟨fun _ => hw, fun _ => hw.1⟩) fun _ => id)) fun _ => ?_
  refine .bind (spec_runWlopm false watched_requested (fun _ hw => hw.2) fun _ hw => hw.1)
    fun off => .ite (fun _ => .pure fun _ hw => hw.1) fun _ => ?_
  refine .bind (spec_runWlopm true watched_requested (fun _ hw => hw.2) fun _ hw => hw.1)
    fun _ => ?_
  exact .bind (spec_clearRequested.mono (fun _ hw => hw.1) (fun _ _ => id) fun _ => id)
    fun _ => .raise fun _ => id

/-- A wake was requested, and the outputs are paused. -/
def Woken (policy : Option Bool) (w : Markers τ) : Prop := w.wake = true ∧ Paused policy w

theorem Woken.requested (h : Woken policy w) : Requested w ∧ Paused policy w :=
  ⟨fun _ _ => h.1, h.2⟩

theorem spec_requestIdleTopologyRestore :
    Spec policy (Woken (τ := τ) policy) requestIdleTopologyRestore (fun _ => Woken policy)
      Requested := by
  refine .bind spec_idleTopologyActive fun idle =>
    ite (fun _ => ?_) fun _ => .pure fun _ hw => hw.1
  refine Spec.orDie (Spec.ask (fun _ hw _ => hw.1.1) ?_)
  rintro w answer w' hw hdoes -
  have hwoken : Woken policy w' := by
    rcases hdoes with rfl | ⟨-, rfl⟩
    · exact hw.1
    · exact hw.1
  cases answer with
  | ok b => exact ⟨fun _ => hwoken, fun _ => hwoken.requested.1⟩
  | error e => exact hwoken.requested.1

theorem spec_idleIfFound :
    Spec policy (Woken (τ := τ) policy) idleIfFound (fun _ => Woken policy) Requested := by
  refine .bind (spec_still (fun _ _ _ h => h) (fun _ => trivial)
    fun _ hw => hw.requested.1) fun found => .ite (fun _ => ?_) fun _ => .pure fun _ => id
  exact spec_idleTopologyActive.mono (fun _ => id) (fun _ _ hw => hw.1) fun _ => id

theorem spec_restoreIfIdle
    (hreconcile : Spec policy Requested reconcile (fun _ => Requested) Requested) :
    Spec policy (Woken policy) (restoreIfIdle reconcile) (fun _ => Requested) Requested := by
  refine .bind spec_idleIfFound fun idle =>
    ite (fun _ => ?_) fun _ => .pure fun _ hw => hw.requested.1
  exact .bind spec_requestIdleTopologyRestore fun _ =>
    (spec_restoreIdleTopology hreconcile).mono (fun _ hw => hw.requested) (fun _ _ => id)
      fun _ => id

theorem spec_dpmsOnMode
    (hreconcile : Spec policy Requested reconcile (fun _ => Requested) Requested) :
    Spec policy (fun w => w.wake = true) (dpmsOnMode policy reconcile) (fun _ => Requested)
      Requested := by
  refine .bind (Q := fun _ => Woken policy)
    (spec_pauseOutputAuthority (fun _ h => h) (fun _ _ h => h) fun _ hw _ _ => hw) fun _ => ?_
  refine .bind (Q := fun _ => Woken policy) (Spec.orDie ((spec_runWlopm true
    (fun _ _ h => h) (fun _ hw => hw.2) fun _ hw => hw.requested.1).mono (fun _ => id)
    (fun _ w hw => ⟨fun _ => hw, fun _ => hw.requested.1⟩) fun _ => id)) fun _ => ?_
  refine .bind (spec_restoreIfIdle hreconcile) fun restored =>
    ite (fun _ => .pure fun _ => id) fun _ => ?_
  exact .bind (Spec.call (Q := fun _ => Requested)
    (spec_still (fun _ _ _ h => h) (fun _ => trivial) fun _ => id)) fun _ => .pure fun _ => id

/-- There is no snapshot, and Kanshi is not configured. -/
def Free (policy : Option Bool) (w : Markers τ) : Prop :=
  w.snapshot = none ∧ policy = some false

theorem Free.requested (h : Free policy w) : Requested w :=
  requested_of_none w h.1

theorem spec_commitPlan :
    Spec policy (Free (τ := τ) policy) commitPlan (fun _ => Requested) Requested := by
  have hwatched : Watched (Free (τ := τ) policy) := fun _ _ h => h
  refine .bind (Spec.capture fun _ hw => hw.requested) fun ready => ?_
  refine .bind (spec_sessionIsActive hwatched) fun active =>
    ite (fun _ => .pure fun _ hw => hw.1.requested) fun _ => ?_
  refine .bind (Q := fun _ => Free policy) (spec_stillOf (fun _ _ _ h => h)
    (fun _ => trivial) (fun _ hw => hw.1) fun _ hw => hw.requested) fun changed =>
    ite (fun _ => .pure fun _ hw => hw.requested) fun _ => ?_
  have hgeometry : Spec policy (Free (τ := τ) policy) (applyOutputTransaction .geometry)
      (fun _ => Free policy) Requested := by
    refine spec_transaction hwatched (fun _ _ _ h => h) (fun w hw => ⟨fun hsome => ?_, fun hyes => ?_⟩)
      fun _ hw => hw.requested
    · rw [hw.1] at hsome
      cases hsome
    · cases hw.2.symm.trans hyes
  refine .bind (Q := fun _ => Free policy) (Spec.orDie (hgeometry.mono (fun _ => id)
    (fun _ w hw => ⟨fun _ => hw, fun _ => hw.requested⟩) fun _ => id)) fun _ => ?_
  refine .bind (spec_sessionIsActive hwatched) fun active =>
    ite (fun _ => .pure fun _ hw => hw.1.requested) fun _ => ?_
  refine .bind (Q := fun _ => Free policy)
    ((Spec.capture fun _ hw => hw.requested).mono (fun _ hw => hw.1) (fun _ _ => id) fun _ => id)
    fun _ => ?_
  refine .bind (Spec.call (Q := fun _ => Free policy)
    (spec_still (fun _ _ _ h => h) (fun _ => trivial) fun _ hw => hw.requested)) fun _ => ?_
  have hchanged : Spec policy (Free (τ := τ) policy) (ask .topologyChanged) (fun _ => Free policy)
      Requested := spec_still (fun _ _ _ h => h) (fun _ => trivial) fun _ hw => hw.requested
  exact hchanged.mono (fun _ => id) (fun _ _ hw => hw.requested) fun _ => id

/-- A question at the end of a reconciliation. -/
theorem spec_reported {P : Markers τ → Prop} (hP : ∀ w, P w → Requested w) :
    Spec policy P (do call .saveTopology; ask .topologyChanged) (fun _ => Requested)
      Requested := by
  refine .bind (Spec.call (Q := fun _ => P)
    (spec_still (fun _ _ _ h => h) (fun _ => trivial) hP)) fun _ => ?_
  have hchanged : Spec policy P (ask .topologyChanged) (fun _ => P) Requested :=
    spec_still (fun _ _ _ h => h) (fun _ => trivial) hP
  exact hchanged.mono (fun _ => id) (fun _ => hP) fun _ => id

theorem spec_applyPlan :
    Spec policy (Free (τ := τ) policy) applyPlan (fun _ => Requested) Requested := by
  have hwatched : Watched (Free (τ := τ) policy) := fun _ _ h => h
  refine .bind (spec_sessionIsActive hwatched) fun active =>
    ite (fun _ => .pure fun _ hw => hw.1.requested) fun _ => ?_
  refine .bind (Q := fun _ => Free policy) (spec_stillOf (fun _ _ _ h => h)
    (fun _ => trivial) (fun _ hw => hw.1) fun _ hw => hw.requested) fun plan =>
    ite (fun _ => .pure fun _ hw => hw.requested) fun _ => ?_
  refine .bind (spec_still (fun _ _ _ h => h) (fun _ => trivial) fun _ hw => hw.requested)
    fun current => .ite (fun _ => ?_) fun _ => ?_
  · exact spec_reported fun _ => Free.requested
  · exact .bind (spec_stillOrDie (fun _ _ _ h => h) (fun _ => trivial)
      fun _ hw => hw.requested) fun _ => spec_commitPlan

theorem spec_reconcileMode :
    Spec policy (fun w : Markers τ => w.snapshot = none) (reconcileMode policy)
      (fun _ => Requested) Requested := by
  have hnone : ∀ w : Markers τ, w.snapshot = none → Requested w := requested_of_none
  refine .bind (spec_still (fun _ _ _ h => h) (fun _ => trivial) hnone) fun found =>
    ite (fun _ => .pure hnone) fun _ => ?_
  refine .bind (Spec.capture hnone) fun state => ?_
  cases state with
  | none => exact .pure hnone
  | some topology =>
    refine .bind (spec_kanshiIsConfigured hnone) fun configured =>
      ite (fun _ => spec_reported fun w hw => hnone w hw.1) fun hno => ?_
    rw [Bool.not_eq_true] at hno
    subst hno
    exact spec_applyPlan

/-- The rule of `refresh_outputs`. -/
theorem spec_refreshOutputs (depth : ℕ) (mode : Mode) :
    Spec policy (fun w : Markers τ => Requested w ∧ (mode = .dpmsOn → w.wake = true))
      (refreshOutputs policy depth mode) (fun _ => Requested) Requested := by
  induction depth generalizing mode with
  | zero =>
    refine Spec.ask (fun _ _ => trivial) ?_
    rintro w answer w' hw hdoes -
    exact hdoes.elim
  | succ depth ih =>
    have hreconcile : Spec policy Requested (refreshOutputs (τ := τ) policy depth .refresh)
        (fun _ => Requested) Requested :=
      (ih .refresh).mono (fun _ hw => ⟨hw, fun h => by cases h⟩) (fun _ _ => id) fun _ => id
    have hrestore : Spec policy Requested
        (refreshOutputs (τ := τ) policy depth .restoreIdleTopology) (fun _ => Requested)
        Requested :=
      (ih .restoreIdleTopology).mono (fun _ hw => ⟨hw, fun h => by cases h⟩) (fun _ _ => id)
        fun _ => id
    refine .bind (spec_sessionIsActive fun _ _ h => h) fun active =>
      ite (fun _ => .pure fun _ hw => hw.1.1) fun _ => ?_
    cases mode with
    | idleTopologyActive =>
      exact spec_idleTopologyActive.mono (fun _ hw => hw.1) (fun _ _ hw => hw.1.1) fun _ => id
    | restoreIdleTopology =>
      exact (spec_restoreMode hreconcile).mono (fun _ hw => hw.1.1) (fun _ _ => id) fun _ => id
    | dpmsOff => exact spec_dpmsOffMode.mono (fun _ hw => hw.1.1) (fun _ _ => id) fun _ => id
    | dpmsOn =>
      exact (spec_dpmsOnMode hreconcile).mono (fun _ hw => hw.1.2 rfl) (fun _ _ => id) fun _ => id
    | refresh =>
      refine .bind spec_idleTopologyActive fun idle => .ite (fun _ => ?_) fun hidle => ?_
      · refine .bind spec_restoreRequested fun requested =>
          ite (fun _ => ?_) fun _ => .pure fun _ hw => hw.1.1.1.1
        exact hrestore.mono (fun _ hw => hw.1.1.1.1) (fun _ _ => id) fun _ => id
      · rw [Bool.not_eq_true] at hidle
        subst hidle
        exact spec_reconcileMode.mono
          (fun _ hw => Option.isNone_iff_eq_none.1 (by simpa using hw.2)) (fun _ _ => id) fun _ => id

/-- The pause marker is gone, unless displays are idle or the session was found inactive. -/
def Released (w : Markers τ) : Prop :=
  w.snapshot.isSome = true ∨ w.inactive = true ∨ w.pause = false

/-- The pause marker stays behind for a failure only. -/
def Stuck (w : Markers τ) : Prop := Requested w ∧ (w.pause = false ∨ w.stuck = true)

theorem spec_startIfFound {P : Markers τ → Prop} (hP : Tried P) :
    Spec policy P startIfFound (fun ok w => P w ∧ (ok = false → w.stuck = true))
      (fun w => P w ∧ w.stuck = true) := by
  refine .bind (spec_tried hP (fun _ _ _ h => h) fun _ => trivial) fun found =>
    ite (fun _ => ?_) fun hfound => ?_
  · have hstart : Spec policy P (ask .startKanshi) (fun ok w => P w ∧ (ok = false → w.stuck = true))
        (fun w => P w ∧ w.stuck = true) :=
      spec_tried hP (fun _ _ _ h => h) fun _ => trivial
    exact hstart.mono (fun _ hw => hw.1) (fun _ _ => id) fun _ => id
  · exact .pure fun w hw => ⟨hw.1, fun _ => hw.2 (Bool.eq_false_iff.2 hfound)⟩

theorem spec_restartKanshi {P : Markers τ → Prop} (hP : ∀ w, P w → Requested w) (htried : Tried P) :
    Spec policy P restartKanshi (fun _ => P) Stuck := by
  refine .bind ((spec_startIfFound htried).mono (fun _ => id) (fun _ _ => id)
    fun w hw => ⟨hP w hw.1, .inr hw.2⟩) fun started =>
      ite (fun _ => .pure fun _ hw => hw.1) fun hstarted => ?_
  have hstuck : ∀ w : Markers τ, Requested w ∧ w.stuck = true → Stuck w :=
    fun w hw => ⟨hw.1, .inr hw.2⟩
  have hpublish : Spec policy (fun w : Markers τ => Requested w ∧ w.stuck = true)
      (ask .publishPause) (fun _ w => Requested w ∧ w.stuck = true) Stuck :=
    (spec_publishPause fun _ h => h).mono (fun _ => id) (fun _ _ hw => hw.1) hstuck
  exact .bind ((Spec.call (Q := fun _ w => Requested w ∧ w.stuck = true) hpublish).mono
    (fun w hw => ⟨hP w hw.1, hw.2 (Bool.eq_false_iff.2 hstarted)⟩) (fun _ _ => id) fun _ => id)
    fun _ => .raise hstuck

/-- The rule of the removal of the marker. -/
theorem spec_removeMarker :
    Spec policy (Requested (τ := τ)) (removeMarker policy)
      (fun _ w => Requested w ∧ w.pause = false) Stuck := by
  have htry : Spec policy (Requested (τ := τ)) (orDie (ask .pauseIsOwn)) (fun _ => Requested)
      (fun w => Requested w ∧ w.stuck = true) :=
    spec_triedOrDie (fun _ _ h => h) (fun _ _ _ h => h) fun _ => trivial
  have hown : Spec policy (Requested (τ := τ)) (orDie (ask .pauseIsOwn)) (fun _ => Requested)
      Stuck := htry.mono (fun _ => id) (fun _ _ => id) fun w hw => ⟨hw.1, .inr hw.2⟩
  have hremove : Spec policy (Requested (τ := τ)) (orDie (ask .removePause))
      (fun _ w => Requested w ∧ w.pause = false) Stuck := by
    refine Spec.orDie (Spec.ask (fun _ _ => trivial) ?_)
    rintro w answer w' hw (⟨rfl, rfl⟩ | ⟨hfailed, rfl⟩) -
    · exact ⟨fun _ => ⟨hw, rfl⟩, fun h => by cases h⟩
    · cases answer with
      | ok b =>
        refine ⟨?_, fun _ => ⟨hw, .inr rfl⟩⟩
        rintro rfl
        exact (hfailed rfl).elim
      | error e => exact ⟨hw, .inr rfl⟩
  refine .bind hown fun _ => .bind hremove fun _ =>
    bind (spec_kanshiIsConfigured fun w hw => ⟨hw.1, .inl hw.2⟩) fun configured =>
      ite (fun _ => ?_) fun _ => .pure fun _ hw => hw.1
  exact (spec_restartKanshi (P := fun w => Requested w ∧ w.pause = false) (fun _ hw => hw.1)
    fun _ _ h => h).mono (fun _ hw => hw.1) (fun _ _ => id) fun _ => id

/-- The rule of `resume_output_authority`. -/
theorem spec_resumeOutputAuthority :
    Spec policy (Requested (τ := τ)) (resumeOutputAuthority policy)
      (fun _ w => Requested w ∧ Released w) Stuck := by
  refine .bind spec_idleTopologyActive fun idle => .ite (fun hidle => ?_) fun _ => ?_
  · exact .pure fun w hw => ⟨hw.1, .inl (hw.2.trans hidle)⟩
  refine .bind (spec_sessionIsActive fun _ _ h => h) fun active =>
    ite (fun hactive => .pure fun w hw => ⟨hw.1.1, .inr (.inl (hw.2 hactive))⟩) fun _ => ?_
  have hpaused : Spec policy (Requested (τ := τ)) (ask .pauseExists)
      (fun paused w => Requested w ∧ w.pause = paused) Stuck := by
    refine Spec.ask (fun _ _ => trivial) ?_
    rintro w answer w' hw ⟨rfl, rfl⟩ -
    exact ⟨hw, rfl⟩
  refine .bind (hpaused.mono (fun _ hw => hw.1.1) (fun _ _ => id) fun _ => id) fun paused =>
    ite (fun _ => ?_) fun hpause => ?_
  · exact spec_removeMarker.mono (fun _ hw => hw.1) (fun _ w hw => ⟨hw.1, .inr (.inr hw.2)⟩)
      fun _ => id
  · exact .pure fun w hw => ⟨hw.1, .inr (.inr (hw.2.trans (Bool.eq_false_iff.2 hpause)))⟩

/-- What a failed run leaves behind. -/
def Failed (w : Markers τ) : Prop := Requested w ∧ (Released w ∨ w.stuck = true)

theorem Stuck.failed (h : Stuck w) : Failed w :=
  ⟨h.1, h.2.imp_left fun hpause => .inr (.inr hpause)⟩

theorem spec_recoverFailed :
    Spec policy (Requested (τ := τ)) (recoverFailed policy) (fun _ _ => False) Failed := by
  refine .bind (Q := fun _ => Requested) (.handle (S := Requested)
    (Spec.call (Q := fun _ => Requested)
      (spec_still (fun _ _ _ h => h) (fun _ => trivial) fun _ => id))
    fun _ => .pure fun _ => id) fun _ => ?_
  exact .bind (Q := fun _ => Failed) (.handle (S := Stuck)
    (spec_resumeOutputAuthority.mono (fun _ => id) (fun _ w hw => ⟨hw.1, .inl hw.2⟩) fun _ => id)
    fun _ => .pure fun _ => Stuck.failed) fun _ => .raise fun _ => id

/-- The rule of a whole run. -/
theorem spec_runRefreshAction (depth : ℕ) (mode : Mode) :
    Spec policy (fun w : Markers τ => Requested w ∧ (mode = .dpmsOn → w.wake = true))
      (runRefreshAction policy depth mode)
      (fun _ w => Requested w ∧ (mode ≠ .idleTopologyActive → Released w)) Failed := by
  refine .bind (spec_sessionIsActive fun _ _ h => h) fun active =>
    ite (fun hactive => .pure fun w hw => ⟨hw.1.1, fun _ => .inr (.inl (hw.2 hactive))⟩)
      fun _ => ?_
  have hlocked : Spec policy (fun w : Markers τ => Requested w ∧ (mode = .dpmsOn → w.wake = true))
      (refreshLocked policy depth mode)
      (fun _ w => Requested w ∧ (mode ≠ .idleTopologyActive → Released w)) Requested := by
    refine .bind (spec_refreshOutputs depth mode) fun result =>
      ite (fun hmode => .pure fun w hw => ⟨hw, fun hne => (hne hmode).elim⟩) fun _ => ?_
    exact .bind (spec_resumeOutputAuthority.mono (fun _ => id) (fun _ _ => id)
      fun _ hw => hw.1) fun _ => .pure fun w hw => ⟨hw.1, fun _ => hw.2⟩
  refine .bind (.handle (hlocked.mono (fun _ hw => hw.1) (fun _ _ => id) fun _ => id)
    fun _ => spec_recoverFailed.mono (fun _ => id) (fun _ _ h => h.elim) fun _ => id)
    fun result => .ite (fun _ => .pure fun _ => id) fun hmode => ?_
  exact .bind (Spec.call (Q := fun _ w => Requested w ∧
      (mode ≠ .idleTopologyActive → Released w))
    (spec_still (fun _ _ _ h => h) (fun _ => trivial) fun w hw => ⟨hw.1, .inl (hw.2 hmode)⟩))
    fun _ => .pure fun _ => id

end Modes

end Preseed.OutputWatch
