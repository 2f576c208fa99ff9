import Preseed.Effects.Maintaining
import Preseed.HardwareTuning.SeatActivity

/-!
# A manual selection does not outlive the seat's activity

Every program of the broker keeps `Watched`: what has been seen of the seat since a
selection was made is still to be heeded by the next reconcile. A reconcile that
heeds it drops the selection before it applies anything, and so no selection of the
desktop user is applied too late.
-/

namespace Preseed.HardwareTuning

open Effects

/-- No manual selection has outlived the activity of the seat. -/
def Fresh (s : Broker) (g : Marks) : Prop :=
  ∀ vendor mark, s.HasMark g vendor mark → mark.lapsed = false

/-- The next reconcile has to heed what has been seen of the seat. -/
def Watched (s : Broker) (g : Marks) : Prop :=
  ∀ vendor mark, s.HasMark g vendor mark → mark.lapsed = true → mark.unheeded = true

/-- What is known of the selections matters only while they are in place. -/
def Ignorant (I : Broker → Marks → Prop) : Prop :=
  ∀ (s s' : Broker) (g : Marks), I s g →
    (∀ vendor, (s'.manual vendor).isSome → (s.manual vendor).isSome) → I s' g

/-- A profile is applied to a vendor only if its manual selection has not outlived the seat. -/
def inTime : Guard Services Broker Marks := fun g s op =>
  ∀ vendor profile, op = .apply vendor profile → ¬s.Outlived g vendor

theorem ignorant_fresh : Ignorant Fresh :=
  fun _ _ _ h hsub vendor mark hmark => h vendor mark ⟨hsub vendor hmark.1, hmark.2⟩

theorem ignorant_watched : Ignorant Watched :=
  fun _ _ _ h hsub vendor mark hmark => h vendor mark ⟨hsub vendor hmark.1, hmark.2⟩

theorem Fresh.watched {s : Broker} {g : Marks} (h : Fresh s g) : Watched s g := by
  intro vendor mark hmark hlapsed
  rw [h vendor mark hmark] at hlapsed
  cases hlapsed

section Rules

variable {config : Config} {heeds : Broker → Marks → Bool → Prop} {reconciles : Bool}
  {I : Broker → Marks → Prop} {vendor : Vendor}

/-- The rule of an operation besides looking at the seat. -/
theorem maintains_call {op : Service} (hop : op ≠ .seatActive)
    (hguard : ∀ s g, I s g → inTime g s op) :
    Act.Maintains (helpers heeds reconciles) inTime I (call op) fun _ => True := by
  intro s g h
  refine ⟨hguard s g h, fun answer g' hans => ?_⟩
  have hsame : g' = g := by
    cases op with
    | seatActive => exact (hop rfl).elim
    | _ => exact hans
  exact ⟨hsame ▸ h, fun _ _ => trivial⟩

theorem maintains_child {α : Type} {process : BrokerAct (Child α)} (hI : Ignorant I)
    (h : Act.Maintains (helpers heeds reconciles) inTime I process fun _ => True) :
    Act.Maintains (helpers heeds reconciles) inTime I (Broker.child process) fun _ => True := by
  unfold Broker.child
  refine .bind (.mono .get fun _ _ => trivial) fun s _ => .ite (fun _ => .raise _) fun _ => ?_
  refine .bind h fun answer _ => ?_
  have hunknown : ∀ (f : Broker → Bool), Act.Maintains (helpers heeds reconciles) inTime I
      (Act.modify fun s => { s with childOutcomeUnknown := f s } : BrokerAct Unit) fun _ => True :=
    fun f => .modify fun s g h => hI _ _ _ h fun _ hv => hv
  cases answer with
  | ok result => exact .pure trivial
  | failed text => exact .raise _
  | notStarted text => exact .raise _
  | lost => exact .bind (hunknown _) fun _ _ => .raise _
  | cancelled started => exact .bind (hunknown _) fun _ _ => .raise _

theorem maintains_policy (hI : Ignorant I) (act : PolicyAction) :
    Act.Maintains (helpers heeds reconciles) inTime I (Broker.policy act) fun _ => True := by
  refine .bind (maintains_child hI (maintains_call nofun fun _ _ _ => nofun)) fun status _ => ?_
  exact .modify fun s g h => hI _ _ _ h fun _ hv => hv

theorem maintains_autostartEnabled :
    Act.Maintains (helpers heeds reconciles) inTime I Broker.autostartEnabled fun _ => True := by
  refine .bind (.mono .get fun _ _ => trivial) fun s _ => ?_
  cases s.policyState with
  | some status => exact .pure trivial
  | none => exact maintains_call nofun fun _ _ _ => nofun

theorem maintains_save :
    Act.Maintains (helpers heeds reconciles) inTime I Broker.save fun _ => True := by
  refine .bind (.mono .get fun _ _ => trivial) fun s _ => ?_
  exact .bind (maintains_call nofun fun _ _ _ => nofun) fun answer _ => .lift fun _ _ => trivial

section

variable (hI : Ignorant I)
include hI

theorem maintains_restore :
    Act.Maintains (helpers heeds reconciles) inTime I (Broker.restore vendor) fun _ => True := by
  refine .bind (maintains_child hI (maintains_call nofun fun _ _ _ => nofun)) fun _ _ => ?_
  exact .modify fun s g h => hI _ _ _ h fun _ hv => hv

theorem maintains_fault (exc : Failure) :
    Act.Maintains (helpers heeds reconciles) inTime I (Broker.fault vendor exc) fun _ => True := by
  refine .bind (P := fun _ => True) (.handleIf ?_ fun recovery => ?_) fun error _ => ?_
  · exact .bind (maintains_restore hI) fun _ _ => .pure trivial
  · exact .bind (.modify fun s g h => hI _ _ _ h fun _ hv => hv) fun _ _ => .pure trivial
  · exact .bind (.modify fun s g h => hI _ _ _ h fun _ hv => hv) fun _ _ => maintains_save

theorem maintains_recover :
    Act.Maintains (helpers heeds reconciles) inTime I (Broker.recover vendor) fun _ => True :=
  .handleIf (maintains_restore hI) (maintains_fault hI)

theorem maintains_stopTuning {disable clearFaults : Bool} :
    Act.Maintains (helpers heeds reconciles) inTime I
      (Broker.stopTuning config disable clearFaults) fun _ => True := by
  refine .bind (.modify fun s g h => hI _ _ _ h fun _ hv => hv) fun _ _ => ?_
  refine .bind (.modify fun s g h => hI _ _ _ h fun _ hv => by cases hv) fun _ _ => ?_
  refine .bind maintains_save fun _ _ => ?_
  refine .bind (.forEach fun _ _ => maintains_recover hI) fun _ _ => ?_
  refine .bind (.mono .get fun _ _ => trivial) fun s _ => ?_
  refine .bind (.when fun _ => .handleIf ?_ fun exc => ?_) fun _ _ => maintains_save
  · refine .bind (maintains_policy hI _) fun _ _ => ?_
    exact .modify fun s g h => hI _ _ _ h fun _ hv => hv
  · exact .modify fun s g h => hI _ _ _ h fun _ hv => hv

theorem maintains_giveUp {disable : Bool} {exc : Failure} :
    Act.Maintains (helpers heeds reconciles) inTime I (Broker.giveUp config disable exc)
      fun _ => True :=
  .bind (maintains_stopTuning hI) fun _ _ => .modify fun _ _ h => hI _ _ _ h fun _ hv => hv

theorem maintains_acquire :
    Act.Maintains (helpers heeds reconciles) inTime I (Broker.acquire config) fun _ => True := by
  refine .bind (.forEach fun _ _ => maintains_restore hI) fun _ _ => ?_
  refine .bind (maintains_policy hI _) fun _ _ => ?_
  exact .modify fun s g h => hI _ _ _ h fun _ hv => hv

theorem maintains_preparePowerProfile :
    Act.Maintains (helpers heeds reconciles) inTime I (Broker.preparePowerProfile config)
      fun _ => True := by
  refine .ite (fun _ => .raise _) fun _ => ?_
  refine .bind (.mono .get fun _ _ => trivial) fun s _ => .ite (fun _ => .raise _) fun _ => ?_
  refine .bind (maintains_policy hI _) fun _ _ => ?_
  refine .bind (.mono .get fun _ _ => trivial) fun s _ => .when fun _ => ?_
  refine .bind (.modify fun s g h => hI _ _ _ h fun _ hv => hv) fun _ _ => ?_
  refine .bind maintains_save fun _ _ => .handleIf ?_ fun exc => ?_
  · exact .bind (maintains_acquire hI) fun _ _ => maintains_save
  · exact .bind (maintains_giveUp hI) fun _ _ => .bind maintains_save fun _ _ => .raise _

theorem maintains_askPolicy (request : ControlRequest) :
    Act.Maintains (helpers heeds reconciles) inTime I (Broker.askPolicy request)
      fun _ => True := by
  unfold Broker.askPolicy
  cases request.asksPolicy with
  | none => exact .pure trivial
  | some strict =>
    refine .handleIf (maintains_policy hI _) fun exc => .ite (fun _ => .raise _) fun _ => ?_
    exact .modify fun s g h => hI _ _ _ h fun _ hv => hv

theorem maintains_allow (request : ControlRequest) (peer : Peer) :
    Act.Maintains (helpers heeds reconciles) inTime I (Broker.allow config request peer)
      fun _ => True := by
  refine .bind (maintains_askPolicy hI request) fun _ _ => ?_
  refine .bind (.mono .get fun _ _ => trivial) fun s _ => .ite (fun _ => .raise _) fun _ => ?_
  cases request with
  | manual vendor profile confirmed =>
    refine .bind (.modify fun s g h => hI _ _ _ h fun _ hv => hv) fun _ _ => ?_
    refine .bind (.mono .get fun _ _ => trivial) fun s _ => .ite (fun _ => .raise _) fun _ => ?_
    refine .ite (fun _ => ?_) fun _ => .pure trivial
    refine .bind (.modify fun s g h => hI _ _ _ h fun _ hv => hv) fun _ _ => ?_
    refine .bind maintains_save fun _ _ => .handleIf ?_ fun exc => ?_
    · exact .bind (maintains_acquire hI) fun _ _ => .pure trivial
    · exact .bind (maintains_giveUp hI) fun _ _ => .bind maintains_save fun _ _ => .pure trivial
  | powerProfile profile =>
    exact .bind (maintains_preparePowerProfile hI) fun _ _ => .pure trivial
  | _ => exact .pure trivial

end

variable {s : Broker} {g : Marks}

/-- The rule of a look at the seat. -/
theorem wp_look {Q : Except Failure Bool → Broker → Marks → Prop}
    (h : ∀ (active : Bool) g', helpers heeds reconciles g s .seatActive active g' →
      Q (.ok active) s g') :
    wp (helpers heeds reconciles) inTime Broker.seatActive Q s g :=
  ⟨fun _ _ => nofun, h⟩

/-- What is seen of the seat outside of a reconcile is still to be heeded. -/
theorem Watched.checked (h : Watched s g) (active : Bool) :
    Watched s fun vendor => (g vendor).map (·.checked active) := by
  rintro vendor mark ⟨hmanual, hmark, hmaker⟩ hlapsed
  obtain ⟨before, hbefore, rfl⟩ := Option.map_eq_some_iff.mp hmark
  cases active with
  | true =>
    simp only [Mark.checked, Bool.not_true, Bool.or_false] at hlapsed hmaker ⊢
    exact h vendor before ⟨hmanual, hbefore, hmaker⟩ hlapsed
  | false => simp [Mark.checked]

theorem maintains_checked :
    Act.Maintains (helpers heeds false) inTime Watched Broker.seatActive fun _ => True := by
  intro s g h
  refine wp_look fun active g' hans => ⟨?_, fun _ _ => trivial⟩
  have hg : g' = fun vendor => (g vendor).map (·.checked active) := hans
  rw [hg]
  exact h.checked active

theorem maintains_checkPeer (request : ControlRequest) (peer : Peer) :
    Act.Maintains (helpers heeds false) inTime Watched (Broker.checkPeer request peer)
      fun _ => True := by
  refine .ite (fun _ => .raise _) fun _ => .when fun _ => ?_
  exact .bind maintains_checked fun active _ => .when fun _ => .raise _

theorem maintains_prepareHold (peer : Peer) :
    Act.Maintains (helpers heeds false) inTime Watched (Broker.prepareHold config peer)
      fun _ => True := by
  refine .ite (fun _ => .raise _) fun _ => .bind maintains_checked fun active _ => ?_
  exact .ite (fun _ => .raise _) fun _ => maintains_preparePowerProfile ignorant_watched

/-! ### Reconciling -/

theorem maintains_reconcileVendor {health active : Bool} {idle : Option Profile} :
    Act.Maintains (helpers heeds reconciles) inTime Fresh
      (Broker.reconcileVendor health active idle vendor) fun _ => True := by
  have hinTime : ∀ s g op, Fresh s g → inTime g s op := by
    rintro s g op h v profile - ⟨mark, hmark, hlapsed⟩
    rw [h v mark hmark] at hlapsed
    cases hlapsed
  refine .bind (.mono .get fun _ _ => trivial) fun s _ => .when fun _ => ?_
  refine .handleIf ?_ (maintains_fault ignorant_fresh)
  refine .bind (P := fun _ => True) ?_ fun _ _ => ?_
  · refine .bind (.mono .get fun _ _ => trivial) fun s _ => .when fun _ => ?_
    refine .bind (maintains_child ignorant_fresh (maintains_call nofun fun s g => hinTime s g _))
      fun conflicts _ => ?_
    exact .when fun _ => .raise _
  · refine .bind (.mono .get fun _ _ => trivial) fun s _ => .when fun _ => ?_
    refine .bind (.when fun _ => maintains_restore ignorant_fresh) fun _ _ => ?_
    split
    · exact .pure trivial
    · refine .bind (maintains_child ignorant_fresh (maintains_call nofun fun s g => hinTime s g _))
        fun controls _ => ?_
      exact .modify fun s g h => ignorant_fresh _ _ _ h fun _ hv => hv

theorem maintains_handBack (hI : Ignorant I) :
    Act.Maintains (helpers heeds reconciles) inTime I (Broker.handBack config) fun _ => True := by
  refine .bind (.mono .get fun _ _ => trivial) fun s _ => ?_
  refine .ite (fun _ => maintains_stopTuning hI) fun _ => .when fun _ => ?_
  refine .handleIf (maintains_policy hI _) fun exc => ?_
  exact .bind (.modify fun s g h => hI _ _ _ h fun _ hv => hv) fun _ _ => maintains_save

/-- A reconcile whose look at the seat is heeded drops the selections that have outlived it, or has
none. -/
theorem maintains_reconcile {health : Bool} :
    Act.Maintains (helpers Heeded true) inTime Watched (Broker.reconcile config health)
      fun _ => True := by
  have hrest : ∀ s g active, Fresh s g →
      wp (helpers Heeded true) inTime (do
        Act.modify fun s : Broker => { s with wasActive := active }
        let ac ← Broker.onAc
        Act.forEach config.vendors
          (Broker.reconcileVendor health active (if ac then config.idleAc else config.idleBattery))
        Broker.handBack config)
        (fun x s' g' => Watched s' g' ∧ ∀ a, x = .ok a → True) s g := by
    intro s g active h
    have hmaintains : Act.Maintains (helpers Heeded true) inTime Fresh (do
        Act.modify fun s : Broker => { s with wasActive := active }
        let ac ← Broker.onAc
        Act.forEach config.vendors
          (Broker.reconcileVendor health active (if ac then config.idleAc else config.idleBattery))
        Broker.handBack config) fun _ => True := by
      refine .bind (.modify fun s g h => ignorant_fresh _ _ _ h fun _ hv => hv) fun _ _ => ?_
      refine .bind (maintains_call nofun fun _ _ _ => nofun) fun ac _ => ?_
      refine .bind (.forEach fun _ _ => maintains_reconcileVendor) fun _ _ => ?_
      exact maintains_handBack ignorant_fresh
    exact wp_mono (hmaintains s g h) fun x s' g' hpost => ⟨hpost.1.watched, hpost.2⟩
  intro s g h
  unfold Broker.reconcile
  rw [wp_bind]
  refine wp_look fun active g' hans => ?_
  obtain ⟨hheeded, rfl⟩ : Heeded s g active ∧
      g' = fun vendor => (g vendor).map (·.reconciled active) := hans
  rw [outcome_ok, wp_bind, wp_get, outcome_ok, wp_bind, wp_when]
  refine ⟨fun _ => ?_, fun hkeep => ?_⟩
  · -- The selections are dropped.
    have hnone : Fresh { s with manual := fun _ => none }
        fun vendor => (g vendor).map (·.reconciled active) := by
      rintro vendor mark ⟨hmanual, -⟩
      cases hmanual
    rw [wp_bind, wp_modify, outcome_ok]
    refine wp_mono (maintains_save _ _ hnone) ?_
    rintro (e | _) s' g' ⟨hfresh, -⟩
    · exact ⟨hfresh.watched, fun _ _ => trivial⟩
    · exact hrest s' g' active hfresh
  · refine hrest s _ active ?_
    rintro vendor mark ⟨hmanual, hmark, hmaker⟩
    obtain ⟨before, hbefore, rfl⟩ := Option.map_eq_some_iff.mp hmark
    obtain ⟨hfirst, hlater⟩ := hheeded vendor before ⟨hmanual, hbefore, hmaker⟩
    have hactive : active = true := by
      by_contra hinactive
      rw [Bool.not_eq_true] at hinactive
      exact hkeep ⟨hfirst hinactive, hinactive⟩
    subst hactive
    by_contra hlapsed
    rw [Bool.not_eq_false] at hlapsed
    simp only [Mark.reconciled, Bool.not_true, Bool.or_false] at hlapsed
    cases hlater (h vendor before ⟨hmanual, hbefore, hmaker⟩ hlapsed)

theorem maintains_saveAndReconcile :
    Act.Maintains (helpers Heeded true) inTime Watched (Broker.saveAndReconcile config)
      fun _ => True :=
  .bind maintains_save fun _ _ => maintains_reconcile

theorem maintains_reconcileHold :
    Act.Maintains (helpers Heeded true) inTime Watched (Broker.reconcileHold config)
      fun _ => True := by
  refine .bind maintains_reconcile fun _ _ => .bind (.mono .get fun _ _ => trivial) fun s _ => ?_
  exact .when fun _ => .raise _

theorem maintains_startTuning {boot : Bool} :
    Act.Maintains (helpers Heeded true) inTime Watched (Broker.startTuning config boot)
      fun _ => True := by
  have hI := ignorant_watched
  refine .bind (.mono .get fun _ _ => trivial) fun s _ => .ite (fun _ => .raise _) fun _ => ?_
  refine .bind maintains_autostartEnabled fun oldBoot _ => ?_
  refine .ite (fun _ => maintains_policy hI _) fun _ => ?_
  refine .bind (.modify fun s g h => hI _ _ _ h fun _ hv => hv) fun _ _ => ?_
  refine .bind (.modify fun s g h => hI _ _ _ h fun _ hv => hv) fun _ _ => ?_
  refine .bind maintains_save fun _ _ => ?_
  refine .bind (.forEach fun _ _ => maintains_recover hI) fun _ _ => ?_
  refine .bind (.mono .get fun _ _ => trivial) fun s _ => .when fun _ => .handleIf ?_ fun exc => ?_
  · refine .bind (maintains_policy hI _) fun _ _ => ?_
    refine .bind (.modify fun s g h => hI _ _ _ h fun _ hv => hv) fun _ _ => ?_
    refine .bind maintains_save fun _ _ => .bind maintains_reconcile fun _ _ => ?_
    refine .bind (.mono .get fun _ _ => trivial) fun s _ => ?_
    exact .when fun _ => maintains_policy hI _
  · exact .bind (maintains_giveUp hI) fun _ _ => maintains_save

variable {request : ControlRequest}

/-- The requests that select nothing. -/
theorem maintains_finish (hrequest : ∀ v, request.selects v = false) :
    Act.Maintains (helpers Heeded true) inTime Watched (Broker.finish config request)
      fun _ => True := by
  have hI := ignorant_watched
  cases request with
  | status => exact .pure trivial
  | report =>
    refine .forEach fun _ _ => .handleIf ?_ fun exc => .pure trivial
    exact maintains_child hI (maintains_call nofun fun _ _ _ => nofun)
  | autoStart confirmed | bootEnable confirmed => exact maintains_startTuning
  | autoStop | bootDisable | reset => exact maintains_stopTuning hI
  | manual vendor profile confirmed => simp [ControlRequest.selects] at hrequest
  | profilesReset =>
    refine .bind (.modify fun s g h => hI _ _ _ h fun _ hv => hv) fun _ _ => ?_
    refine .bind (.modify fun s g h => hI _ _ _ h fun _ hv => by cases hv) fun _ _ => ?_
    exact maintains_saveAndReconcile
  | pause =>
    refine .bind (.modify fun s g h => hI _ _ _ h fun _ hv => hv) fun _ _ => ?_
    refine .bind (.mono .get fun _ _ => trivial) fun s _ => ?_
    exact .bind (.forEach fun _ _ => maintains_recover hI) fun _ _ => maintains_saveAndReconcile
  | resume =>
    refine .bind (.modify fun s g h => hI _ _ _ h fun _ hv => hv) fun _ _ => ?_
    exact maintains_saveAndReconcile
  | powerProfile profile =>
    have hselects : true = false := hrequest .intel
    cases hselects

/-- A new selection has not outlived anything. -/
theorem Watched.selected {s' : Broker} {peer : Peer} (h : Watched s g)
    (hsame : ∀ v, request.selects v = false → s'.manual v = s.manual v) :
    Watched s' (g.selected request peer) := by
  rintro v mark ⟨hmanual, hmark, hmaker⟩ hlapsed
  unfold Marks.selected at hmark
  by_cases hselects : request.selects v = true
  · rw [if_pos hselects] at hmark
    cases hmark
    cases hlapsed
  · rw [if_neg hselects] at hmark
    rw [Bool.not_eq_true] at hselects
    exact h v mark ⟨hsame v hselects ▸ hmanual, hmark, hmaker⟩ hlapsed

theorem wp_finish {peer : Peer} (h : Watched s g) :
    wp (helpers Heeded true) inTime (Broker.finish config request)
      (fun _ s' g' => Watched s' g') s (g.selected request peer) := by
  have hpost : ∀ {act : BrokerAct Unit} {s' : Broker} {g' : Marks},
      Act.Maintains (helpers Heeded true) inTime Watched act (fun _ => True) → Watched s' g' →
      wp (helpers Heeded true) inTime act (fun _ s' g' => Watched s' g') s' g' :=
    fun hact hwatched => wp_mono (hact _ _ hwatched) fun _ _ _ hend => hend.1
  cases request with
  | manual vendor profile confirmed =>
    unfold Broker.finish Broker.selectManual
    rw [wp_bind, wp_modify, outcome_ok]
    refine hpost ?_ (h.selected fun v hv => ?_)
    · exact .bind (maintains_recover ignorant_watched) fun _ _ => maintains_saveAndReconcile
    · have hne : v ≠ vendor := by simpa [ControlRequest.selects] using hv
      simp [Broker.selecting, hne]
  | powerProfile profile =>
    unfold Broker.finish Broker.publish
    rw [wp_bind, wp_modify, outcome_ok, wp_bind, wp_modify, outcome_ok]
    refine hpost ?_ (h.selected fun v hv => by cases hv)
    refine .bind maintains_save fun _ _ => .bind maintains_reconcile fun _ _ => ?_
    exact .bind (.mono .get fun _ _ => trivial) fun s _ => .when fun _ => .raise _
  | _ => exact hpost (maintains_finish fun _ => rfl) (h.selected fun _ _ => rfl)

/-- The rule of a part. -/
theorem wp_part (part : Part) (h : Watched s g) :
    wp (helpers Heeded part.reconciles) inTime (part.program config)
      (fun _ s' g' => Watched s' g') s (part.marks g) := by
  have hpost : ∀ {act : BrokerAct Bool} {reconciles : Bool},
      Act.Maintains (helpers Heeded reconciles) inTime Watched act (fun _ => True) →
      wp (helpers Heeded reconciles) inTime act (fun _ s' g' => Watched s' g') s g :=
    fun hact => wp_mono (hact s g h) fun _ _ _ hend => hend.1
  have hleased : ∀ {s' : Broker} {x : Except Failure Broker},
      (∀ s', x = .ok s' → s'.manual = s.manual) → x = .ok s' → Watched s' g := by
    intro s' x hsame hx
    refine ignorant_watched _ _ _ h fun v hv => ?_
    rwa [hsame s' hx] at hv
  have hconnection : ∀ x : Except Failure Broker, (∀ s', x = .ok s' → s'.manual = s.manual) →
      wp (helpers Heeded true) inTime (do
        let s ← Act.lift x
        Act.modify fun _ => s
        Broker.reconcile config false
        pure false) (fun _ s' g' => Watched s' g') s g := by
    intro x hsame
    rw [wp_bind, wp_lift]
    cases x with
    | error e => exact h
    | ok s' =>
      rw [outcome_ok, wp_bind, wp_modify, outcome_ok, wp_bind]
      refine wp_mono (maintains_reconcile _ _ (hleased hsame rfl)) ?_
      rintro (e | _) s'' g'' hend
      · exact hend.1
      · exact hend.1
  cases part with
  | check request peer =>
    exact hpost (.bind (maintains_checkPeer request peer) fun _ _ => .pure trivial)
  | allow request peer => exact hpost (maintains_allow ignorant_watched request peer)
  | finish request peer =>
    unfold Part.program
    rw [wp_bind]
    refine wp_mono (wp_finish h) ?_
    rintro (e | _) s' g' hend
    · exact hend
    · exact hend
  | prepareHold peer profile =>
    exact hpost (.bind (maintains_prepareHold peer) fun _ _ => .pure trivial)
  | hold profile =>
    refine hpost (.bind (.modify fun s g h => ?_) fun _ _ =>
      .bind maintains_reconcileHold fun _ _ => .pure trivial)
    exact ignorant_watched _ _ _ h fun _ hv => hv
  | lease vendor profile =>
    unfold Part.program
    rw [wp_bind, wp_get, outcome_ok]
    refine hconnection _ fun s' hs => ?_
    simp only [Broker.grantLease, Selection.changeLease] at hs
    split at hs
    · cases hs
    · cases hs
      rfl
  | release held =>
    unfold Part.program
    rw [wp_bind, wp_get, outcome_ok]
    refine hconnection _ fun s' hs => ?_
    cases held with
    | app vendor profile =>
      simp only [Broker.release, Selection.changeLease] at hs
      split at hs
      · cases hs
      · cases hs
        rfl
    | power profile generation =>
      simp only [Broker.release] at hs
      split at hs
      · cases hs
        rfl
      · cases hs
        rfl
  | poll => exact hpost (.bind maintains_reconcile fun _ _ => .pure trivial)

theorem Seated.watched {stage : Stage} (h : Seated config Heeded stage s g) : Watched s g := by
  induction h with
  | start s =>
    rintro vendor mark ⟨-, hmark, -⟩
    cases hmark
  | status before active ih => exact ih.checked active
  | part before run ih => exact (wp_part _ ih).result run

end Rules

/-- In every run of the broker in which each reconcile heeds what has been seen of the seat, no
reconcile applies a manual selection of the desktop user once the seat has been seen inactive since
it was made. -/
theorem selections_follow_the_seat (config : Config) (part : Part) {s : Broker} {g : Marks}
    (hreached : Seated config Heeded part.begins s g) {g' : Marks}
    {p : Program Services Broker (Except Failure Bool × Broker)}
    (hrun : part.Running config Heeded s g g' p) {mem : Broker} {op : Service}
    (hissued : p.issued? = some (mem, op)) (vendor : Vendor)
    (happlies : mem.AppliesManual vendor op) : ¬mem.Outlived g' vendor := by
  obtain ⟨profile, hop, -, -⟩ := happlies
  exact (wp_part part hreached.watched).guard hrun hissued vendor profile hop

/-! ### A selection at a desk -/

/-- A desktop with one graphics card, without automatic profiles. -/
def desk : Config where
  vendors := [.nvidia]
  idleAc := none
  idleBattery := none
  customApi := false
  installed := by decide
  nodup := by decide

/-- The request of its user. -/
def deskRequest : ControlRequest := .manual .nvidia .performance false

/-- Helpers that succeed, while the seat is active or not. -/
def obliging (reconciles active : Bool) (g : Marks) (_ : Broker) (op : Service) :
    op.Reply × Marks :=
  match op with
  | .seatActive => (active, fun vendor => (g vendor).map fun mark =>
      if reconciles then mark.reconciled active else mark.checked active)
  | .reset _ | .report _ => (.ok (), g)
  | .apply _ _ => (.ok true, g)
  | .health _ => (.ok [], g)
  | .policy _ =>
    (.ok ⟨⟨.notFound, .inactive, .notFound⟩, ⟨.loaded, .inactive, .disabled⟩, false⟩, g)
  | .save _ => (.ok (), g)
  | .load => (.ok none, g)
  | .onAc => (true, g)
  | .autostartLink => (false, g)

/-- No mark is still to be heeded. -/
def Marks.heeded (g : Marks) : Bool :=
  [.intel, .nvidia].all fun vendor => !(g vendor).any Mark.unheeded

private theorem obliging_helpers (heeds : Broker → Marks → Bool → Prop) (reconciles active : Bool)
    (g : Marks) (s : Broker) (op : Service) (h : heeds s g active) :
    helpers heeds reconciles g s op (obliging reconciles active g s op).1
      (obliging reconciles active g s op).2 := by
  cases op with
  | seatActive =>
    unfold helpers obliging
    cases reconciles with
    | true => exact ⟨h, rfl⟩
    | false => rfl
  | _ => rfl

private theorem heeded_active (s : Broker) {g : Marks} (h : g.heeded = true) : Heeded s g true := by
  rintro vendor mark ⟨-, hmark, -⟩
  refine ⟨nofun, fun hunheeded => ?_⟩
  have hall := List.all_eq_true.mp h vendor (by cases vendor <;> simp)
  simp [hmark, hunheeded] at hall

/-- A part with these helpers, for a number of operations. -/
def Part.outcome (part : Part) (active : Bool) (n : ℕ) (b : Broker × Marks) :
    Marks × Program Services Broker (Except Failure Bool × Broker) :=
  Program.runFor (obliging part.reconciles active) n (part.marks b.2) (part.program desk b.1)

/-- What a part leaves. -/
def Part.after (part : Part) (active : Bool) (b : Broker × Marks) : Broker × Marks :=
  let outcome := part.outcome active 20 b
  (outcome.2.memory, outcome.1)

private theorem Seated.after {heeds : Broker → Marks → Bool → Prop} (part : Part) (active : Bool)
    (b : Broker × Marks) (before : Seated desk heeds part.begins b.1 b.2)
    (run : part.Running desk heeds b.1 b.2 (part.outcome active 20 b).1
      (part.outcome active 20 b).2) (goesOn : Bool)
    (hends : ((part.outcome active 20 b).2.result?.bind fun r => r.1.toOption) = some goesOn) :
    Seated desk heeds (part.ends (.ok goesOn)) (part.after active b).1 (part.after active b).2 := by
  obtain ⟨⟨x, s'⟩, hresult, hx⟩ := Option.bind_eq_some_iff.mp hends
  have hok : x = .ok goesOn := by
    cases x with
    | error e => cases hx
    | ok a => exact congrArg Except.ok (Option.some.inj hx)
  have hdone := Program.eq_done_of_result? hresult
  rw [hdone, hok] at run
  have hmemory : (part.after active b).1 = s' := by
    change (part.outcome active 20 b).2.memory = s'
    rw [hdone]
    rfl
  rw [hmemory]
  exact .part before run

private theorem running_heeded (part : Part) (n : ℕ) (b : Broker × Marks)
    (hheeded : Program.checkedFor (obliging part.reconciles true) (fun g _ _ => g.heeded) n
      (part.marks b.2) (part.program desk b.1) = true) :
    part.Running desk Heeded b.1 b.2 (part.outcome true n b).1 (part.outcome true n b).2 :=
  .of_checkedFor (fun g s op h => obliging_helpers Heeded _ true g s op (heeded_active s h)) n _ _
    hheeded

private theorem running_free (part : Part) (active : Bool) (n : ℕ) (b : Broker × Marks) :
    part.Running desk (fun _ _ _ => True) b.1 b.2 (part.outcome active n b).1
      (part.outcome active n b).2 :=
  .of_runFor (fun g s op => obliging_helpers _ _ active g s op trivial) n _ _

/-- The user's request up to its check, made while the seat is active. -/
def deskChecked (wasActive : Bool) : Broker × Marks :=
  (Part.check deskRequest .desktop).after true (.initial wasActive, fun _ => none)

/-- The request up to its admission. -/
def deskAdmitted (wasActive : Bool) : Broker × Marks :=
  (Part.allow deskRequest .desktop).after true (deskChecked wasActive)

/-- The memory and the operation are those of an apply of the user's selection. -/
def deskApplies (issued : Broker × Service) : Bool :=
  match issued.2 with
  | .apply .nvidia .performance =>
    issued.1.manual .nvidia = some .performance && !issued.1.held
  | _ => false

private theorem appliesManual_of_deskApplies
    {p : Program Services Broker (Except Failure Bool × Broker)}
    (h : p.issued?.any deskApplies = true) :
    ∃ mem op, p.issued? = some (mem, op) ∧ mem.AppliesManual .nvidia op := by
  obtain ⟨⟨mem, op⟩, hissued, happlies⟩ := (Option.any_eq_true _ _).mp h
  refine ⟨mem, op, hissued, ?_⟩
  unfold deskApplies at happlies
  split at happlies
  · rename_i hop
    rw [Bool.and_eq_true, decide_eq_true_eq, Bool.not_eq_true'] at happlies
    exact ⟨.performance, hop, happlies.1, happlies.2⟩
  · cases happlies

/-- The request up to an operation, with the seat still active. -/
def deskFinishing (n : ℕ) : Marks × Program Services Broker (Except Failure Bool × Broker) :=
  (Part.finish deskRequest .desktop).outcome true n (deskAdmitted true)

/-- The rule at the apply that the request of the user of this desk comes to. -/
theorem selections_follow_the_seat_desk :
    ∃ mem op, (deskFinishing 4).2.issued? = some (mem, op) ∧ mem.AppliesManual .nvidia op ∧
      ¬mem.Outlived (deskFinishing 4).1 .nvidia := by
  have hchecked : Seated desk Heeded (.checked deskRequest .desktop)
      (deskChecked true).1 (deskChecked true).2 :=
    .after (.check deskRequest .desktop) true (.initial true, fun _ => none) (.start _)
      (running_heeded _ 20 _ (by decide)) true (by decide)
  have hadmitted : Seated desk Heeded (.admitted deskRequest .desktop)
      (deskAdmitted true).1 (deskAdmitted true).2 :=
    .after (.allow deskRequest .desktop) true (deskChecked true) hchecked
      (running_heeded _ 20 _ (by decide)) true (by decide)
  obtain ⟨mem, op, hissued, happlies⟩ :=
    appliesManual_of_deskApplies (p := (deskFinishing 4).2) (by decide)
  exact ⟨mem, op, hissued, happlies, selections_follow_the_seat desk (.finish deskRequest .desktop)
    hadmitted (running_heeded _ 4 _ (by decide)) hissued .nvidia happlies⟩

/-- The desk after a request for which the broker has not seen the seat active, and which finds it
inactive when it reconciles. -/
def deskLeft : Broker × Marks := (Part.finish deskRequest .desktop).after false (deskAdmitted false)

/-- A manual selection may be applied although the seat was inactive since it was made: the broker
had not seen the seat active, so that it does not drop the selection. -/
theorem selection_outlives_the_seat :
    ¬∀ (config : Config) (part : Part) s g, Seated config (fun _ _ _ => True) part.begins s g →
      ∀ g' p, part.Running config (fun _ _ _ => True) s g g' p → ∀ mem op,
      p.issued? = some (mem, op) → ∀ vendor, mem.AppliesManual vendor op →
        ¬mem.Outlived g' vendor := by
  intro h
  have hchecked : Seated desk (fun _ _ _ => True) (.checked deskRequest .desktop)
      (deskChecked false).1 (deskChecked false).2 :=
    .after (.check deskRequest .desktop) true (.initial false, fun _ => none) (.start _)
      (running_free _ true 20 _) true (by decide)
  have hadmitted : Seated desk (fun _ _ _ => True) (.admitted deskRequest .desktop)
      (deskAdmitted false).1 (deskAdmitted false).2 :=
    .after (.allow deskRequest .desktop) true (deskChecked false) hchecked
      (running_free _ true 20 _) true (by decide)
  have hleft : Seated desk (fun _ _ _ => True) .idle deskLeft.1 deskLeft.2 :=
    .after (.finish deskRequest .desktop) false (deskAdmitted false) hadmitted
      (running_free _ false 20 _) false (by decide)
  obtain ⟨mem, op, hissued, happlies⟩ :=
    appliesManual_of_deskApplies (p := (Part.poll.outcome true 2 deskLeft).2) (by decide)
  have hmark : (Part.poll.outcome true 2 deskLeft).1 .nvidia = some ⟨.desktop, true, false⟩ := by
    decide
  refine h desk .poll _ _ hleft _ _ (running_free .poll true 2 deskLeft) mem op hissued .nvidia
    happlies ⟨_, ⟨?_, hmark, rfl⟩, rfl⟩
  obtain ⟨profile, -, hmanual, -⟩ := happlies
  rw [hmanual]
  rfl

end Preseed.HardwareTuning
