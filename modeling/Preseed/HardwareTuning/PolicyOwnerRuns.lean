import Preseed.HardwareTuning.PolicyOwner

/-!
# One boot owner at a time

While the helper hands the policy over, one of the two services stays enabled at
boot, a claim is recorded before PPD is taken out of service, and PPD comes back
only when no vendor's journal has entries. The exception is `disable` where PPD
is not the helper's business: there it switches off the tuning service alone.
-/

namespace Preseed.HardwareTuning.PolicyOwner

open Effects Act

variable {config : Config} {installed : Bool} {s : Memory} {w w' : World}

/-- A service is enabled at boot: the tuning service, or PPD without a persistent mask. -/
def BootOwner (w : World) : Prop :=
  w.autostart.enabled = true ∨ (w.ppd.enabled = true ∧ w.ppd.persistentMask = false)

/-- A PPD that the helper took out of service is recorded as claimed, and was the helper's
business. -/
def Recorded (config : Config) (w : World) : Prop :=
  w.excluded = true → w.record = true ∧ config.managed = true ∧ w.ppd.found = true

/-- The invariant of the handover, where PPD is installed or not. -/
def Owned (config : Config) (installed : Bool) (w : World) : Prop :=
  BootOwner w ∧ Recorded config w ∧ w.ppd.found = installed

/-- No vendor's journal has entries. -/
def Idle (config : Config) (w : World) : Prop := ∀ vendor ∈ config.vendors, w.idle vendor = true

/-- The invariant at every step; PPD is unmasked or started when the hardware is idle, and
masked or stopped when the claim is recorded. -/
def Careful (config : Config) (installed : Bool) : Guard System Memory World := fun w _ step =>
  Owned config installed w ∧
    match step with
    | .files .unmask .ppd _ | .job true .ppd => Idle config w
    | .files .mask .ppd _ | .job false .ppd => w.record = true
    | _ => True

/-! ### What drifts -/

/-- A fact that the system keeps on its own. -/
def Stable (K : World → Prop) : Prop := ∀ w w', Drifts w w' → K w → K w'

theorem Drifts.found (h : Drifts w w') : w'.ppd.found = w.ppd.found := by
  rw [h.ppd]

theorem stable_owned : Stable (Owned config installed) := by
  rintro w w' h ⟨hboot, hrecorded, hfound⟩
  refine ⟨?_, fun hexcluded => ?_, h.found.trans hfound⟩
  · unfold BootOwner at hboot ⊢
    rw [h.ppd, h.autostart]
    exact hboot
  · rw [h.excluded, Bool.and_eq_true] at hexcluded
    rw [h.record, h.found]
    exact hrecorded hexcluded.1

/-- The locks are held, and the hardware is idle. -/
def Held (config : Config) (w : World) : Prop :=
  ∀ vendor ∈ config.vendors, w.held vendor = true ∧ w.idle vendor = true

theorem Held.idle (h : Held config w) : Idle config w := fun vendor hmem => (h vendor hmem).2

theorem stable_held : Stable (Held config) := by
  intro w w' h hheld vendor hmem
  obtain ⟨hlock, hidle⟩ := hheld vendor hmem
  rw [h.held, h.idle vendor hlock]
  exact ⟨hlock, hidle⟩

theorem stable_and {K L : World → Prop} (hK : Stable K) (hL : Stable L) :
    Stable fun w => K w ∧ L w :=
  fun w w' h hboth => ⟨hK w w' h hboth.1, hL w w' h hboth.2⟩

/-! ### Rules for single steps -/

/-- The postcondition of a part of the helper: a fact after a success, the invariant always. -/
def ends {α : Type} (config : Config) (installed : Bool) (K : α → World → Prop) :
    Except Failure α → Memory → World → Prop :=
  outcome (fun a _ w => Owned config installed w ∧ K a w) fun _ _ w => Owned config installed w

section Steps

variable {K : World → Prop}

variable {step : Step}

theorem wp_request {Q : Except Failure step.Reply → Memory → World → Prop} :
    wp Answers (Careful config installed) (request step) Q s w ↔
      Careful config installed w s step ∧ ∀ r w', Answers w s step r w' → Q r s w' := by
  unfold request
  rw [wp_bind, wp_perform]
  rfl

theorem wp_order {h : step.Reply = Unit} {Q : Except Failure Unit → Memory → World → Prop}
    (hguard : Careful config installed w s step)
    (hok : ∀ w' (reply : step.Reply), Drifts (step.effect w) w' → step.Truthful w' reply →
      Q (.ok ()) s w') (herror : step ≠ .unlock → ∀ e w', Drifts (step.effect w) w' ∨ Drifts w w' →
      Q (.error e) s w') :
    wp Answers (Careful config installed) (order step h) Q s w := by
  unfold order
  rw [wp_bind, wp_request]
  refine ⟨hguard, ?_⟩
  rintro (e | reply) w' hanswer
  · exact herror hanswer.1 e w' hanswer.2
  · exact hok w' reply hanswer.1 hanswer.2

variable (hstable : Stable K)

include hstable

/-- A step which the invariant and a stable fact survive. -/
theorem wp_step {h : step.Reply = Unit} (hguard : Careful config installed w s step)
    (howned : Owned config installed (step.effect w)) (hK : K (step.effect w)) :
    wp Answers (Careful config installed) (order step h) (ends config installed fun _ => K) s w := by
  refine wp_order hguard ?_ ?_
  · intro w' _ hdrift _
    exact ⟨stable_owned _ _ hdrift howned, hstable _ _ hdrift hK⟩
  · rintro - e w' (hdrift | hdrift)
    · exact stable_owned _ _ hdrift howned
    · exact stable_owned _ _ hdrift hguard.1

theorem wp_files {member : FileMember} {unit : ManagedUnit} {runtime : Bool} (hguard : Careful config installed w s (.files member unit runtime))
    (howned : Owned config installed ((Step.files member unit runtime).effect w))
    (hK : K ((Step.files member unit runtime).effect w)) :
    wp Answers (Careful config installed) (files member unit runtime) (ends config installed fun _ => K) s w := by
  unfold files
  rw [wp_bind]
  refine wp_mono (wp_step hstable hguard howned hK) ?_
  rintro (e | _) s' w' h
  · exact h
  · exact wp_step hstable ⟨h.1, trivial⟩ h.1 h.2

theorem wp_claim {value : Bool} (howned : Owned config installed w)
    (howned' : Owned config installed { w with record := value }) (hK : K { w with record := value }) :
    wp Answers (Careful config installed) (claim value) (ends config installed fun _ => K) s w := by
  unfold claim
  rw [wp_bind]
  refine wp_mono (wp_step hstable ⟨howned, trivial⟩ howned' hK) ?_
  rintro (e | _) s' w' h
  · exact h
  · exact h

variable (howned : Owned config installed w) (hK : K w)

include howned hK

/-- A question changes nothing. -/
theorem wp_ask {h : step.Reply = Bool} (hguard : Careful config installed w s step)
    (heffect : step.effect w = w) :
    wp Answers (Careful config installed) (ask step h)
      (ends config installed fun answer w' => K w' ∧ step.Truthful w' (cast h.symm answer)) s w := by
  unfold ask
  rw [wp_bind, wp_request]
  refine ⟨hguard, ?_⟩
  rintro (e | answer) w' hanswer
  · rcases hanswer.2 with hdrift | hdrift
    · rw [heffect] at hdrift
      exact stable_owned _ _ hdrift howned
    · exact stable_owned _ _ hdrift howned
  · have hdrift := hanswer.1
    rw [heffect] at hdrift
    refine ⟨stable_owned _ _ hdrift howned, hstable _ _ hdrift hK, ?_⟩
    simpa using hanswer.2

/-- Reading a unit tells its state. -/
theorem wp_unitState {unit : ManagedUnit} :
    wp Answers (Careful config installed) (unitState unit)
      (ends config installed fun state w' => K w' ∧ state = (w'.unit unit).state ∧
        (w'.ppdBack = true → w'.excluded = false)) s w := by
  refine wp_request.mpr ⟨⟨howned, trivial⟩, ?_⟩
  rintro (e | state) w' hanswer
  · rcases hanswer.2 with hdrift | hdrift <;> exact stable_owned _ _ hdrift howned
  · refine ⟨stable_owned _ _ hanswer.1 howned, hstable _ _ hanswer.1 hK, hanswer.2, fun hback => ?_⟩
    rw [hanswer.1.excluded, hback]
    simp

/-- Reading PPD tells its state if it is handed over at all. -/
theorem wp_ppd :
    wp Answers (Careful config installed) (ppd config)
      (ends config installed fun state w' => K w' ∧
        (config.managed = true → state = w'.ppd.state) ∧
        (config.managed = false → state.present = false ∧ state.active = .notManaged) ∧
        (config.managed = true → w'.ppdBack = true → w'.excluded = false)) s w := by
  unfold ppd
  cases hmanaged : config.managed with
  | true =>
    refine wp_mono (wp_unitState hstable howned hK) ?_
    rintro (e | state) s' w' h
    · exact h
    · obtain ⟨howned', hK', hstate, hback⟩ := h
      refine ⟨howned', hK', fun _ => hstate, ?_, fun _ => hback⟩
      intro hfalse
      exact absurd hfalse (by decide)
  | false =>
    refine ⟨howned, hK, ?_, fun _ => ⟨rfl, rfl⟩, ?_⟩ <;>
      exact fun htrue => absurd htrue (by decide)

theorem wp_status :
    wp Answers (Careful config installed) (status config) (ends config installed fun _ => K) s w := by
  unfold status
  rw [wp_bind]
  refine wp_mono (wp_ppd hstable howned hK) ?_
  rintro (e | state) s' w' h
  · exact h
  · obtain ⟨howned', hK', -⟩ := h
    change wp _ _ (unitState .autostart >>= _) _ _ _
    rw [wp_bind]
    refine wp_mono (wp_unitState hstable howned' hK') ?_
    rintro (e | state) s'' w'' h
    · exact h
    · exact ⟨h.1, h.2.1⟩

theorem wp_checkOtherOwners :
    wp Answers (Careful config installed) (checkOtherOwners config) (ends config installed fun _ => K) s w := by
  unfold checkOtherOwners
  split
  · rw [wp_bind]
    refine wp_mono (wp_ask hstable howned hK ⟨howned, trivial⟩ rfl) ?_
    rintro (e | conflict) s' w' h
    · exact h
    · exact (wp_when _ _).mpr ⟨fun _ => h.1, fun _ => ⟨h.1, h.2.1⟩⟩
  · exact ⟨howned, hK⟩

end Steps

/-! ### The hardware locks -/

theorem wp_checkIdle {rest done : List Vendor} {vendor : Vendor}
    (howned : Owned config installed w)
    (hdone : ∀ other ∈ done, w.held other = true ∧ w.idle other = true)
    (hvendors : config.vendors = done ++ vendor :: rest) :
    wp Answers (Careful config installed) (checkIdle vendor)
      (ends config installed fun _ w' => ∀ other ∈ done ++ [vendor], w'.held other = true ∧
        w'.idle other = true) s w := by
  let Locked : World → Prop := fun w => w.held vendor = true ∧
    ∀ other ∈ done, w.held other = true ∧ w.idle other = true
  have hstable : Stable Locked := by
    rintro w w' hdrift ⟨hvendor, hothers⟩
    refine ⟨by rw [hdrift.held]; exact hvendor, fun other hmem => ?_⟩
    obtain ⟨hheld, hidle⟩ := hothers other hmem
    rw [hdrift.held, hdrift.idle other hheld]
    exact ⟨hheld, hidle⟩
  have hlocked : Locked ((Step.lock vendor).effect w) := by
    constructor
    · simp [Step.effect]
    · intro other hmem
      obtain ⟨hheld, hidle⟩ := hdone other hmem
      simp [Step.effect, hheld, hidle]
  unfold checkIdle
  rw [wp_bind]
  refine wp_mono (wp_step hstable ⟨howned, trivial⟩ howned hlocked) ?_
  rintro (e | _) s' w' h
  · exact h
  · obtain ⟨howned', hlocked'⟩ := h
    refine (wp_bind _ _).mpr ?_
    refine wp_mono (wp_ask hstable howned' hlocked' ⟨howned', trivial⟩ rfl) ?_
    rintro (e | empty) s'' w'' h
    · exact h
    · obtain ⟨howned'', hlocked'', htrue⟩ := h
      have htrue : empty = w''.idle vendor := htrue
      refine (wp_when _ _).mpr ⟨fun _ => howned'', fun hempty => ⟨howned'', ?_⟩⟩
      intro other hmem
      rw [List.mem_append, List.mem_singleton] at hmem
      rcases hmem with hmem | rfl
      · exact hlocked''.2 other hmem
      · rw [Bool.not_eq_false] at hempty
        exact ⟨hlocked''.1, htrue ▸ hempty⟩

/-- The locks are taken one after the other. -/
theorem wp_checkAll (howned : Owned config installed w) :
    wp Answers (Careful config installed) (forEach config.vendors checkIdle)
      (ends config installed fun _ => Held config) s w := by
  refine wp_forEach (fun rest _ w => Owned config installed w ∧ ∃ done, config.vendors = done ++ rest ∧
    ∀ other ∈ done, w.held other = true ∧ w.idle other = true)
    ⟨howned, [], rfl, by simp⟩ ?_ ?_
  · rintro vendor rest s w ⟨howned, done, hvendors, hdone⟩
    refine wp_mono (wp_checkIdle howned hdone hvendors) ?_
    rintro (e | _) s' w' h
    · exact h
    · exact ⟨h.1, done ++ [vendor], by simp [hvendors], h.2⟩
  · rintro s w ⟨howned, done, hvendors, hdone⟩
    rw [List.append_nil] at hvendors
    exact ⟨howned, fun vendor hmem => hdone vendor (hvendors ▸ hmem)⟩

/-- Under the locks the body runs with idle hardware, and the locks are given back. -/
theorem wp_hardwareIdle {body : OwnerAct Unit} (howned : Owned config installed w)
    (hbody : ∀ s w', Owned config installed w' → Held config w' →
      wp Answers (Careful config installed) body (fun _ _ w => Owned config installed w) s w') :
    wp Answers (Careful config installed) (hardwareIdle config body) (fun _ _ w => Owned config installed w) s w := by
  unfold hardwareIdle
  rw [wp_ensuring, wp_bind]
  have hunlock : ∀ (x : Except Failure Unit) s w, Owned config installed w →
      wp Answers (Careful config installed) (order .unlock)
        (outcome (fun _ _ w => Owned config installed w) fun _ _ w => Owned config installed w) s w := by
    intro x s w howned
    refine wp_order ⟨howned, trivial⟩ ?_ fun h => absurd rfl h
    intro w' _ hdrift _
    exact stable_owned _ _ hdrift howned
  refine wp_mono (wp_checkAll howned) ?_
  rintro (e | _) s' w' h
  · exact hunlock (.error e) s' w' h
  · rw [outcome_ok]
    refine wp_mono (hbody s' w' h.1 h.2) ?_
    intro x s'' w'' howned''
    exact hunlock x s'' w'' howned''

/-! ### Taking the policy -/

/-- What holds while PPD is taken out of service. -/
structure Claimed (config : Config) (installed : Bool) (boot : Bool) (w : World) : Prop where
  /-- The hardware is idle and locked. -/
  held : Held config w
  /-- The claim is recorded. -/
  record : w.record = true
  /-- PPD is the helper's business. -/
  managed : config.managed = true ∧ installed = true
  /-- PPD is installed or not. -/
  found : w.ppd.found = installed
  /-- Before PPD loses the boot, the tuning service has it. -/
  boot : boot = true → w.autostart.enabled = true

variable {boot : Bool}

theorem stable_claimed : Stable (Claimed config installed boot) := by
  rintro w w' h ⟨hheld, hrecord, hmanaged, hfound, hboot⟩
  refine ⟨stable_held _ _ h hheld, h.record.trans hrecord, hmanaged, h.found.trans hfound, ?_⟩
  rw [h.autostart]
  exact hboot

variable {runtime : Bool} {unit : UnitFile}

theorem apply_found {member : FileMember} :
    (member.apply runtime unit).found = unit.found := by
  cases member <;> simp only [FileMember.apply] <;> split <;> rfl

theorem Claimed.owned (h : Claimed config installed boot w) (hboot : BootOwner w) :
    Owned config installed w :=
  ⟨hboot, fun _ => ⟨h.record, h.managed.1, h.found.trans h.managed.2⟩, h.found⟩

/-- An operation on PPD's unit files keeps the claim. -/
theorem Claimed.files (h : Claimed config installed boot w) (member : FileMember)
    (runtime : Bool) : Claimed config installed boot ((Step.files member .ppd runtime).effect w) where
  held := h.held
  record := h.record
  managed := h.managed
  found := by
    simp only [Step.effect, World.setUnit, World.unit, apply_found]
    exact h.found
  boot := h.boot

theorem Claimed.job (h : Claimed config installed boot w) :
    Claimed config installed boot ((Step.job false .ppd).effect w) :=
  ⟨h.held, h.record, h.managed, h.found, h.boot⟩

/-- Removing a mask keeps a boot owner. -/
theorem bootOwner_unmask (h : BootOwner w) :
    BootOwner ((Step.files .unmask .ppd runtime).effect w) := by
  rcases h with h | ⟨henabled, hmask⟩
  · exact Or.inl h
  · right
    cases runtime
    · exact ⟨henabled, rfl⟩
    · exact ⟨henabled, hmask⟩

theorem wp_unmaskPpd {K : World → Prop} (hstable : Stable K) (howned : Owned config installed w)
    (hheld : Held config w) (hK : K w)
    (hunmask : ∀ runtime w, K w → K ((Step.files .unmask .ppd runtime).effect w)) :
    wp Answers (Careful config installed) unmaskPpd
      (ends config installed fun _ w => K w ∧ Held config w) s w := by
  have howned' : ∀ runtime w, Owned config installed w →
      Owned config installed ((Step.files .unmask .ppd runtime).effect w) := by
    rintro runtime w ⟨hboot, hrecorded, hfound⟩
    have hsame : ((Step.files .unmask .ppd runtime).effect w).ppd.found = w.ppd.found := by
      simp only [Step.effect, World.setUnit, World.unit, apply_found]
    refine ⟨bootOwner_unmask hboot, fun hexcluded => ?_, hsame.trans hfound⟩
    have hbefore : w.excluded = true := by simpa [Step.effect] using hexcluded
    obtain ⟨hrecord, hmanaged, hfound⟩ := hrecorded hbefore
    exact ⟨hrecord, hmanaged, hsame.trans hfound⟩
  unfold unmaskPpd
  rw [wp_bind]
  refine wp_mono (wp_files (stable_and hstable stable_held) ⟨howned, hheld.idle⟩
    (howned' true w howned) ⟨hunmask true w hK, hheld⟩) ?_
  rintro (e | _) s' w' h
  · exact h
  · obtain ⟨howned'', hK', hheld'⟩ := h
    exact wp_files (stable_and hstable stable_held) ⟨howned'', hheld'.idle⟩
      (howned' false w' howned'') ⟨hunmask false w' hK', hheld'⟩

/-- An operation that disables or masks PPD: the tuning service has the boot, or PPD keeps it
under a runtime mask. -/
theorem wp_files_claimed {member : FileMember} (hmember : member = .disable ∨ member = .mask)
    (hruntime : boot = false → member = .mask ∧ runtime = true) (howned : Owned config installed w)
    (hclaimed : Claimed config installed boot w) :
    wp Answers (Careful config installed) (files member .ppd runtime)
      (ends config installed fun _ => Claimed config installed boot) s w := by
  have hafter := hclaimed.files member runtime
  refine wp_files stable_claimed ⟨howned, ?_⟩ (hafter.owned ?_) hafter
  · rcases hmember with rfl | rfl
    · trivial
    · exact hclaimed.record
  · cases boot with
    | true => exact Or.inl (hafter.boot rfl)
    | false =>
      obtain ⟨rfl, rfl⟩ := hruntime rfl
      exact howned.1

variable {found : UnitState}

theorem wp_maskPpd (howned : Owned config installed w)
    (hclaimed : Claimed config installed boot w) :
    wp Answers (Careful config installed) (maskPpd boot found) (ends config installed fun _ => Claimed config installed boot)
      s w := by
  unfold maskPpd
  cases boot with
  | true =>
    rw [if_pos rfl, wp_bind]
    refine wp_mono (wp_unmaskPpd stable_claimed howned hclaimed.held hclaimed
      fun runtime w h => h.files .unmask runtime) ?_
    rintro (e | _) s' w' h
    · exact h
    refine (wp_bind _ _).mpr (wp_mono (wp_files_claimed (Or.inl rfl) (by simp) h.1 h.2.1) ?_)
    rintro (e | _) s'' w'' h
    · exact h
    exact wp_files_claimed (Or.inr rfl) (by simp) h.1 h.2
  | false =>
    rw [if_neg (by decide)]
    exact (wp_when _ _).mpr ⟨fun _ => wp_files_claimed (Or.inr rfl) (fun _ => ⟨rfl, rfl⟩) howned
      hclaimed, fun _ => ⟨howned, hclaimed⟩⟩

/-- PPD is taken out of service under a recorded claim. -/
theorem wp_excludePpd (howned : Owned config installed w)
    (hclaimed : Claimed config installed boot w) :
    wp Answers (Careful config installed) (excludePpd config boot found)
      (ends config installed fun _ => Claimed config installed boot) s w := by
  unfold excludePpd
  rw [wp_bind]
  refine wp_mono (wp_maskPpd howned hclaimed) ?_
  rintro (e | _) s' w' h
  · exact h
  have hclaimed' : Claimed config installed boot w' := h.2
  refine (wp_bind _ _).mpr (wp_mono (wp_step stable_claimed ⟨h.1, hclaimed'.record⟩
    (hclaimed'.job.owned h.1.1) hclaimed'.job) ?_)
  rintro (e | _) s'' w'' h
  · exact h
  refine (wp_bind _ _).mpr (wp_mono (wp_ppd stable_claimed h.1 h.2) ?_)
  rintro (e | current) s''' w''' h
  · exact h
  · exact (wp_when _ _).mpr ⟨fun _ => h.1, fun _ => ⟨h.1, h.2.1⟩⟩

/-- A unit read as loaded, and as enabled or disabled. -/
theorem state_loaded (hload : unit.state.load = .loaded)
    (hfile : unit.state.file ∈ [.enabled, .disabled]) :
    unit.masked = false ∧ unit.installable = true ∧
      (unit.state.file = .enabled → unit.enabled = true) := by
  obtain ⟨found, installable, enabled, persistent, runtime, activity⟩ := unit
  cases found <;> cases installable <;> cases enabled <;> cases persistent <;> cases runtime <;>
    simp_all [UnitFile.state, UnitFile.fileState, UnitFile.masked]

/-- PPD is present when it is handed over and installed. -/
theorem present_iff (hfound : w.ppd.found = installed)
    (hstate : config.managed = true → found = w.ppd.state)
    (habsent : config.managed = false → found.present = false) :
    found.present = true ↔ config.managed = true ∧ installed = true := by
  cases hmanaged : config.managed with
  | false => simp [habsent hmanaged]
  | true =>
    rw [hstate hmanaged]
    subst hfound
    cases hppd : w.ppd.found with
    | true =>
      cases hmasked : w.ppd.masked <;> simp [UnitFile.state, hppd, hmasked, UnitState.present]
    | false => simp [UnitFile.state, hppd, UnitState.present]

/-- What holds once the tuning service is known. -/
structure Surveyed (config : Config) (installed : Bool) (found auto : UnitState) (w : World) :
    Prop where
  /-- The hardware is idle and locked. -/
  held : Held config w
  /-- PPD was read. -/
  present : found.present = true ↔ config.managed = true ∧ installed = true
  /-- The tuning service can be enabled. -/
  auto : w.autostart.masked = false ∧ w.autostart.installable = true ∧
    (auto.file = .enabled → w.autostart.enabled = true)

theorem stable_surveyed {auto : UnitState} :
    Stable (Surveyed config installed found auto) := by
  rintro w w' h ⟨hheld, hpresent, hauto⟩
  refine ⟨stable_held _ _ h hheld, hpresent, ?_⟩
  rw [h.autostart]
  exact hauto

/-- `prepare` keeps the invariant. -/
theorem wp_prepare (howned : Owned config installed w) :
    wp Answers (Careful config installed) (prepare config boot)
      (fun _ _ w => Owned config installed w) s w := by
  have htrue : Stable fun _ => True := fun _ _ _ h => h
  unfold prepare
  rw [wp_bind]
  refine wp_mono (wp_checkOtherOwners htrue howned trivial) ?_
  rintro (e | _) s w h
  · exact h
  refine wp_hardwareIdle h.1 fun s w howned hheld => ?_
  rw [wp_bind]
  refine wp_mono (wp_ppd stable_held howned hheld) ?_
  rintro (e | found) s w h
  · exact h
  obtain ⟨howned, hheld, hstate, habsent, -⟩ := h
  have hpresent := present_iff howned.2.2 hstate fun h => (habsent h).1
  rw [outcome_ok, wp_bind]
  refine wp_mono (wp_unitState stable_held howned hheld) ?_
  rintro (e | auto) s w h
  · exact h
  obtain ⟨howned, hheld, hauto, -⟩ := h
  rw [outcome_ok, wp_bind]
  refine (wp_when _ _).mpr ⟨fun _ => howned, fun hgood => ?_⟩
  rw [outcome_ok, wp_bind]
  have hloaded : auto.load = .loaded ∧ auto.file ∈ [.enabled, .disabled] := by
    obtain ⟨hload, hfile⟩ := not_or.mp hgood
    exact ⟨not_not.mp hload, not_not.mp hfile⟩
  have hsurveyed : Surveyed config installed found auto w := by
    refine ⟨hheld, hpresent, ?_⟩
    rw [hauto] at hloaded ⊢
    exact state_loaded hloaded.1 hloaded.2
  have hrecorded : Stable fun w => Surveyed config installed found auto w ∧ w.record = true :=
    stable_and stable_surveyed fun _ _ h hrecord => h.record.trans hrecord
  refine wp_mono (wp_claim hrecorded howned
    ⟨howned.1, fun h => ⟨rfl, (howned.2.1 h).2⟩, howned.2.2⟩
    ⟨⟨hsurveyed.held, hsurveyed.present, hsurveyed.auto⟩, rfl⟩) ?_
  rintro (e | _) s w h
  · exact h
  obtain ⟨howned, hsurveyed, hrecord⟩ := h
  rw [outcome_ok, wp_bind]
  -- from here on the tuning service has the boot if PPD is going to lose it
  have hready : Stable fun w => (Surveyed config installed found auto w ∧ w.record = true) ∧
      (boot = true → w.autostart.enabled = true) := by
    refine stable_and hrecorded fun w w' h hboot => ?_
    rw [h.autostart]
    exact hboot
  have hfinish : ∀ s w, Owned config installed w →
      (Surveyed config installed found auto w ∧ w.record = true) ∧
        (boot = true → w.autostart.enabled = true) →
      wp Answers (Careful config installed) (do
        Act.when (found.present = true) (excludePpd config boot found)
        status config) (fun _ _ w => Owned config installed w) s w := by
    rintro s w howned ⟨⟨hsurveyed, hrecord⟩, hboot⟩
    rw [wp_bind]
    refine (wp_when _ _).mpr ⟨fun hfound => ?_, fun _ => ?_⟩
    · have hmanaged := hsurveyed.present.mp hfound
      refine wp_mono (wp_excludePpd howned ⟨hsurveyed.held, hrecord, hmanaged, howned.2.2, hboot⟩)
        ?_
      rintro (e | _) s w h
      · exact h
      · rw [outcome_ok]
        refine wp_mono (wp_status htrue h.1 trivial) ?_
        rintro (e | _) s w h
        · exact h
        · exact h.1
    · rw [outcome_ok]
      refine wp_mono (wp_status htrue howned trivial) ?_
      rintro (e | _) s w h
      · exact h
      · exact h.1
  refine (wp_when _ _).mpr ⟨fun hneeded => ?_, fun hneeded => ?_⟩
  · obtain ⟨hmasked, hinstallable, -⟩ := hsurveyed.auto
    have heffect : (Step.files .enable .autostart false).effect w =
        { w with autostart := { w.autostart with enabled := true } } := by
      simp [Step.effect, World.setUnit, World.unit, FileMember.apply, hmasked, hinstallable]
    refine wp_mono (wp_files hready ⟨howned, trivial⟩ ?_ ?_) ?_
    · rw [heffect]
      exact ⟨Or.inl rfl, howned.2.1, howned.2.2⟩
    · rw [heffect]
      exact ⟨⟨⟨hsurveyed.held, hsurveyed.present, hmasked, hinstallable, fun _ => rfl⟩, hrecord⟩,
        fun _ => rfl⟩
    · rintro (e | _) s w h
      · exact h
      · exact hfinish s w h.1 h.2
  · refine hfinish s w howned ⟨⟨hsurveyed, hrecord⟩, fun hboot => ?_⟩
    have henabled : auto.file = .enabled := by simpa [hboot] using hneeded
    exact hsurveyed.auto.2.2 henabled

/-! ### Returning the policy -/

/-- PPD has been seen running unmasked; when it has to take over the boot, it is enabled. -/
structure Restored (disable : Bool) (w : World) : Prop where
  /-- PPD is back. -/
  excluded : w.excluded = false
  /-- It is enabled at boot. -/
  enabled : disable = true → w.ppd.enabled = true ∧ w.ppd.persistentMask = false

variable {disable : Bool}

theorem stable_restored : Stable (Restored disable) := by
  rintro w w' h ⟨hexcluded, henabled⟩
  constructor
  · rw [h.excluded, hexcluded, Bool.false_and]
  · rw [h.ppd]
    exact henabled

/-- A unit read as running and not masked, and perhaps as enabled. -/
theorem state_back (hactive : unit.state.active = .active)
    (hfile : unit.state.file.isMasked = false) :
    unit.active = .active ∧ unit.masked = false ∧
      (unit.state.file = .enabled → unit.enabled = true ∧ unit.persistentMask = false) := by
  obtain ⟨found, installable, enabled, persistent, runtime, activity⟩ := unit
  cases found <;> cases installable <;> cases enabled <;> cases persistent <;> cases runtime <;>
    simp_all [UnitFile.state, UnitFile.fileState, UnitFile.masked, FileState.isMasked]

theorem apply_enable (runtime : Bool) (h : unit.enabled = true ∧ unit.persistentMask = false) :
    (FileMember.enable.apply runtime unit).enabled = true ∧
      (FileMember.enable.apply runtime unit).persistentMask = false := by
  unfold FileMember.apply
  dsimp only
  split
  · exact h
  · exact ⟨rfl, h.2⟩

theorem wp_enablePpd (howned : Owned config installed w) (hheld : Held config w) :
    wp Answers (Careful config installed) (enablePpd config)
      (ends config installed fun _ => Held config) s w := by
  unfold enablePpd
  rw [wp_bind]
  refine wp_mono (wp_ppd stable_held howned hheld) ?_
  rintro (e | current) s w h
  · exact h
  obtain ⟨howned, hheld, -⟩ := h
  rw [outcome_ok]
  refine (wp_when _ _).mpr ⟨fun _ => ?_, fun _ => ⟨howned, hheld⟩⟩
  refine wp_files stable_held ⟨howned, trivial⟩ ⟨?_, fun hexcluded => ?_, ?_⟩ hheld
  · rcases howned.1 with hauto | hppd
    · exact Or.inl hauto
    · exact Or.inr (apply_enable false hppd)
  · have hbefore : w.excluded = true := by simpa [Step.effect] using hexcluded
    obtain ⟨hrecord, hmanaged, hfound⟩ := howned.2.1 hbefore
    refine ⟨hrecord, hmanaged, ?_⟩
    simp only [Step.effect, World.setUnit, World.unit, apply_found]
    exact hfound
  · simp only [Step.effect, World.setUnit, World.unit, apply_found]
    exact howned.2.2

theorem wp_restorePpd (hmanaged : config.managed = true) (howned : Owned config installed w)
    (hheld : Held config w) :
    wp Answers (Careful config installed) (restorePpd config disable found)
      (ends config installed fun _ w => Held config w ∧ Restored disable w) s w := by
  unfold restorePpd
  rw [wp_bind]
  refine wp_mono (wp_checkOtherOwners stable_held howned hheld) ?_
  rintro (e | _) s w h
  · exact h
  obtain ⟨howned, hheld⟩ := h
  rw [outcome_ok, wp_bind]
  have hunmask : wp Answers (Careful config installed)
      (Act.when (found.file.isMasked = true) unmaskPpd)
      (ends config installed fun _ => Held config) s w := by
    refine (wp_when _ _).mpr ⟨fun _ => ?_, fun _ => ⟨howned, hheld⟩⟩
    refine wp_mono (wp_unmaskPpd stable_held howned hheld hheld fun _ _ h => h) ?_
    rintro (e | _) s w h
    · exact h
    · exact ⟨h.1, h.2.1⟩
  refine wp_mono hunmask ?_
  rintro (e | _) s w h
  · exact h
  obtain ⟨howned, hheld⟩ := h
  rw [outcome_ok, wp_bind]
  have henable : wp Answers (Careful config installed)
      (Act.when (disable = true) (enablePpd config))
      (ends config installed fun _ => Held config) s w :=
    (wp_when _ _).mpr ⟨fun _ => wp_enablePpd howned hheld, fun _ => ⟨howned, hheld⟩⟩
  refine wp_mono henable ?_
  rintro (e | _) s w h
  · exact h
  obtain ⟨howned, hheld⟩ := h
  rw [outcome_ok, wp_bind]
  refine wp_mono (wp_ppd stable_held howned hheld) ?_
  rintro (e | stopped) s w h
  · exact h
  obtain ⟨howned, hheld, -⟩ := h
  rw [outcome_ok, wp_bind]
  have hstart : wp Answers (Careful config installed)
      (Act.when (stopped.active ≠ .active) (job true .ppd))
      (ends config installed fun _ => Held config) s w := by
    refine (wp_when _ _).mpr ⟨fun _ => ?_, fun _ => ⟨howned, hheld⟩⟩
    have hsame : (Step.job true .ppd).effect w = w := by simp [Step.effect]
    exact wp_step stable_held ⟨howned, hheld.idle⟩ (by rwa [hsame]) (by rwa [hsame])
  refine wp_mono hstart ?_
  rintro (e | _) s w h
  · exact h
  obtain ⟨howned, hheld⟩ := h
  rw [outcome_ok, wp_bind]
  refine wp_mono (wp_ppd stable_held howned hheld) ?_
  rintro (e | current) s w h
  · exact h
  obtain ⟨howned, hheld, hstate, -, hback⟩ := h
  rw [outcome_ok]
  refine (wp_when _ _).mpr ⟨fun _ => howned, fun hgood => ⟨howned, hheld, ?_⟩⟩
  simp only [not_or, not_not, Bool.not_eq_true, not_and] at hgood
  obtain ⟨hactive, hmasked, henabled⟩ := hgood
  rw [hstate hmanaged] at hactive hmasked henabled
  obtain ⟨hrunning, hunmasked, hfile⟩ := state_back hactive hmasked
  refine ⟨hback hmanaged ?_, fun hdisable => hfile (henabled hdisable)⟩
  simp [World.ppdBack, hrunning, hunmasked]

/-- `release` past the check of a recovery keeps the invariant, where `disable` is only used with
a PPD that can take over. -/
theorem wp_releaseIdle (hdisable : disable = true → config.managed = true ∧ installed = true)
    (howned : Owned config installed w) :
    wp Answers (Careful config installed) (releaseIdle config disable)
      (fun _ _ w => Owned config installed w) s w := by
  refine wp_hardwareIdle howned fun s w howned hheld => ?_
  rw [wp_bind]
  refine wp_mono (wp_ppd stable_held howned hheld) ?_
  rintro (e | found) s w h
  · exact h
  obtain ⟨howned, hheld, hstate, habsent, -⟩ := h
  have hpresent := present_iff howned.2.2 hstate fun h => (habsent h).1
  rw [outcome_ok, wp_bind]
  have hrestore : wp Answers (Careful config installed)
      (Act.when (found.present = true) (restorePpd config disable found))
      (ends config installed fun _ => Restored disable) s w := by
    refine (wp_when _ _).mpr ⟨fun hfound => ?_, fun hfound => ⟨howned, ?_, fun h => ?_⟩⟩
    · refine wp_mono (wp_restorePpd (hpresent.mp hfound).1 howned hheld) ?_
      rintro (e | _) s w h
      · exact h
      · exact ⟨h.1, h.2.2⟩
    · rw [← Bool.not_eq_true]
      intro hexcluded
      obtain ⟨-, hmanaged, hinstalled⟩ := howned.2.1 hexcluded
      exact hfound (hpresent.mpr ⟨hmanaged, howned.2.2.symm.trans hinstalled⟩)
    · exact absurd (hpresent.mpr (hdisable h)) hfound
  refine wp_mono hrestore ?_
  rintro (e | _) s w h
  · exact h
  obtain ⟨howned, hrestored⟩ := h
  rw [outcome_ok, wp_bind]
  refine wp_mono (wp_unitState stable_restored howned hrestored) ?_
  rintro (e | auto) s w h
  · exact h
  obtain ⟨howned, hrestored, -⟩ := h
  rw [outcome_ok, wp_bind]
  have hoff : wp Answers (Careful config installed)
      (Act.when (disable = true ∧ auto.file = .enabled) (files .disable .autostart false))
      (ends config installed fun _ => Restored disable) s w := by
    refine (wp_when _ _).mpr ⟨fun hoff => ?_, fun _ => ⟨howned, hrestored⟩⟩
    have hppd := hrestored.enabled hoff.1
    refine wp_files stable_restored ⟨howned, trivial⟩ ⟨Or.inr hppd, ?_, howned.2.2⟩
      ⟨?_, hrestored.enabled⟩
    · intro hexcluded
      exact howned.2.1 (by simpa [Step.effect] using hexcluded)
    · simp [Step.effect, hrestored.excluded]
  refine wp_mono hoff ?_
  rintro (e | _) s w h
  · exact h
  obtain ⟨howned, hrestored⟩ := h
  rw [outcome_ok, wp_bind]
  have hstop : wp Answers (Careful config installed)
      (Act.when (auto.active.isInactive = false) (job false .autostart))
      (ends config installed fun _ => Restored disable) s w := by
    refine (wp_when _ _).mpr ⟨fun _ => ?_, fun _ => ⟨howned, hrestored⟩⟩
    have hsame : (Step.job false .autostart).effect w = w := by simp [Step.effect]
    exact wp_step stable_restored ⟨howned, trivial⟩ (by rwa [hsame]) (by rwa [hsame])
  refine wp_mono hstop ?_
  rintro (e | _) s w h
  · exact h
  obtain ⟨howned, hrestored⟩ := h
  rw [outcome_ok, wp_bind]
  refine wp_mono (wp_claim stable_restored howned ⟨howned.1, fun hexcluded => ?_, howned.2.2⟩
    ⟨hrestored.excluded, hrestored.enabled⟩) ?_
  · have hbefore : w.excluded = true := hexcluded
    rw [hrestored.excluded] at hbefore
    exact absurd hbefore (by decide)
  rintro (e | _) s w h
  · exact h
  rw [outcome_ok]
  refine wp_mono (wp_status stable_restored h.1 h.2) ?_
  rintro (e | _) s w h
  · exact h
  · exact h.1

theorem wp_release {recovery : Bool}
    (hdisable : disable = true → config.managed = true ∧ installed = true)
    (howned : Owned config installed w) :
    wp Answers (Careful config installed) (release config disable recovery)
      (fun _ _ w => Owned config installed w) s w := by
  have htrue : Stable fun _ => True := fun _ _ _ h => h
  have hstatus : ∀ s w, Owned config installed w →
      wp Answers (Careful config installed) (status config)
        (fun _ _ w => Owned config installed w) s w := by
    intro s w howned
    refine wp_mono (wp_status htrue howned trivial) ?_
    rintro (e | _) s w h
    · exact h
    · exact h.1
  unfold release
  cases recovery with
  | false => exact wp_releaseIdle hdisable howned
  | true =>
    rw [if_pos rfl, wp_bind, wp_get, outcome_ok]
    split
    · rw [wp_bind]
      refine wp_mono (wp_ask htrue howned trivial ⟨howned, trivial⟩ rfl) ?_
      rintro (e | stopping) s w h
      · exact h
      rw [outcome_ok]
      cases stopping with
      | true => exact hstatus s w h.1
      | false => exact wp_releaseIdle hdisable h.1
    · exact hstatus s w howned

theorem wp_activate (howned : Owned config installed w) :
    wp Answers (Careful config installed) (activate config)
      (fun _ _ w => Owned config installed w) s w := by
  have htrue : Stable fun _ => True := fun _ _ _ h => h
  have hstatus : ∀ s w, Owned config installed w →
      wp Answers (Careful config installed) (status config)
        (fun _ _ w => Owned config installed w) s w := by
    intro s w howned
    refine wp_mono (wp_status htrue howned trivial) ?_
    rintro (e | _) s w h
    · exact h
    · exact h.1
  unfold activate
  rw [wp_bind]
  refine wp_mono (wp_unitState htrue howned trivial) ?_
  rintro (e | auto) s w h
  · exact h
  have howned := h.1
  rw [outcome_ok, wp_bind]
  refine (wp_when _ _).mpr ⟨fun _ => ?_, fun _ => hstatus s w howned⟩
  have hsame : (Step.job true .autostart).effect w = w := by simp [Step.effect]
  refine wp_mono (wp_step htrue ⟨howned, trivial⟩ (by rwa [hsame]) trivial) ?_
  rintro (e | _) s w h
  · exact h
  · exact hstatus s w h.1

/-! ### Runs of the helper -/

/-- `disable` is only asked for where PPD can take the boot over. -/
def Command.Allowed (config : Config) (installed : Bool) (command : Command) : Prop :=
  command = .disable → config.managed = true ∧ installed = true

variable {command : Command}

/-- Every command keeps the invariant, and takes every step carefully. -/
theorem wp_execute (hallowed : command.Allowed config installed)
    (howned : Owned config installed w) :
    wp Answers (Careful config installed) (execute config command)
      (fun _ _ w => Owned config installed w) s w := by
  have htrue : Stable fun _ => True := fun _ _ _ h => h
  cases command with
  | status =>
    refine wp_mono (wp_status htrue howned trivial) ?_
    rintro (e | _) s w h
    · exact h
    · exact h.1
  | prepareRuntime => exact wp_prepare howned
  | prepareBoot => exact wp_prepare howned
  | activate => exact wp_activate howned
  | stop => exact wp_release (fun h => absurd h (by decide)) howned
  | disable => exact wp_release (fun _ => hallowed rfl) howned
  | recover => exact wp_release (fun h => absurd h (by decide)) howned

theorem wp_main (hallowed : command.Allowed config installed) (howned : Owned config installed w) :
    wp Answers (Careful config installed) (main config command)
      (fun _ _ w => Owned config installed w) s w := by
  have htrue : Stable fun _ => True := fun _ _ _ h => h
  unfold main
  rw [wp_bind]
  refine wp_mono (wp_step htrue ⟨howned, trivial⟩ howned trivial) ?_
  rintro (e | _) s w h
  · exact h
  have howned := h.1
  rw [outcome_ok, wp_bind]
  refine wp_mono (wp_ask htrue howned trivial ⟨howned, trivial⟩ rfl) ?_
  rintro (e | claimed) s w h
  · exact h
  exact wp_execute hallowed h.1

/-- A sequence of commands. Each runs until it ends or the helper is killed, which gives the
locks back; in between the system drifts. -/
inductive Handovers (config : Config) (installed : Bool) : World → World → Prop
  | refl (w : World) : Handovers config installed w w
  | command {w w' w'' w''' : World} {command : Command} {s : Memory}
      {p : Program System Memory (Except Failure Unit × Memory)}
      (before : Handovers config installed w w')
      (allowed : command.Allowed config installed)
      (steps : Program.Steps Answers w' (main config command s) w'' p)
      (drift : Drifts { w'' with held := fun _ => false } w''') :
      Handovers config installed w w'''

theorem owned_of_steps {p : Program System Memory (Except Failure Unit × Memory)}
    (hallowed : command.Allowed config installed) (howned : Owned config installed w)
    (hsteps : Program.Steps Answers w (main config command s) w' p) :
    Owned config installed w' := by
  have hsafe : Program.Safe Answers (Careful config installed)
      (fun _ w => Owned config installed w) (main config command s) w := wp_main hallowed howned
  have hrest := hsafe.steps hsteps
  cases p with
  | done a => exact hrest
  | call mem op next => exact hrest.1.1

theorem Handovers.owned (h : Handovers config installed w w')
    (howned : Owned config installed w) : Owned config installed w' := by
  induction h with
  | refl => exact howned
  | command _ allowed steps drift ih =>
    have hreached := owned_of_steps allowed ih steps
    exact stable_owned _ _ drift hreached

/-- After any sequence of commands, and anywhere in the command under way, one of the two
services is enabled at boot; a PPD taken out of service is recorded as claimed; and the next
step unmasks or starts PPD only if no vendor's journal has entries, and masks or stops it only
under a recorded claim. `disable` is restricted to a PPD that is handed over and installed. -/
theorem boot_owner_preserved (config : Config) (w₀ w w' : World) (command : Command) (s : Memory)
    (p : Program System Memory (Except Failure Unit × Memory))
    (hboot : BootOwner w₀) (hrecorded : Recorded config w₀)
    (hruns : Handovers config w₀.ppd.found w₀ w)
    (hallowed : command.Allowed config w₀.ppd.found)
    (hsteps : Program.Steps Answers w (main config command s) w' p) :
    BootOwner w' ∧ (w'.excluded = true → w'.record = true) ∧
      ∀ mem step, p.issued? = some (mem, step) →
        ((∃ runtime, step = .files .unmask .ppd runtime) ∨ step = .job true .ppd →
          ∀ vendor ∈ config.vendors, w'.idle vendor = true) ∧
        ((∃ runtime, step = .files .mask .ppd runtime) ∨ step = .job false .ppd →
          w'.record = true) := by
  have howned : Owned config w₀.ppd.found w := hruns.owned ⟨hboot, hrecorded, rfl⟩
  have hreached := owned_of_steps hallowed howned hsteps
  refine ⟨hreached.1, fun h => (hreached.2.1 h).1, fun mem step hissued => ?_⟩
  have hsafe : Program.Safe Answers (Careful config w₀.ppd.found)
      (fun _ w => Owned config w₀.ppd.found w) (main config command s) w :=
    wp_main hallowed howned
  have hcareful := hsafe.guard hsteps hissued
  constructor
  · rintro (⟨runtime, rfl⟩ | rfl)
    · exact hcareful.2
    · exact hcareful.2
  · rintro (⟨runtime, rfl⟩ | rfl)
    · exact hcareful.2
    · exact hcareful.2

/-! ### Two concrete runs -/

/-- A unit after a job. -/
def UnitFile.ran (start : Bool) (unit : UnitFile) : UnitFile :=
  { unit with active := if start then .active else .inactive }

/-- The world after a step that succeeds, when nothing else happens. -/
def Step.succeed (w : World) (step : Step) : World :=
  let changed : World := match step with
    | .job start .ppd => { step.effect w with ppd := w.ppd.ran start }
    | .job start .autostart => { step.effect w with autostart := w.autostart.ran start }
    | step => step.effect w
  { changed with excluded := changed.excluded && !changed.ppdBack }

/-- The reply to a step that succeeds. -/
def Step.reply (w : World) : (step : Step) → step.Reply
  | .readRecord => w.record
  | .readJournal vendor => w.idle vendor
  | .state unit => (w.unit unit).state
  | .powerManagers | .stopping => false
  | .lockHandover | .lock _ | .unlock | .files _ _ _ | .reload | .job _ _ | .writeRecord _ => ()

/-- An environment in which every step succeeds. -/
def succeeds (w : World) (_ : Memory) (step : Step) : Except Failure step.Reply × World :=
  (.ok (step.reply (step.succeed w)), step.succeed w)

theorem answers_succeeds (w : World) (s : Memory) (step : Step) :
    Answers w s step (succeeds w s step).1 (succeeds w s step).2 := by
  cases step with
  | job start unit =>
    cases unit <;> cases start <;>
      exact ⟨⟨rfl, rfl, rfl, rfl, fun _ _ => rfl, rfl⟩, rfl⟩
  | readRecord => exact ⟨⟨rfl, rfl, rfl, rfl, fun _ _ => rfl, rfl⟩, rfl⟩
  | readJournal vendor => exact ⟨⟨rfl, rfl, rfl, rfl, fun _ _ => rfl, rfl⟩, rfl⟩
  | state unit => exact ⟨⟨rfl, rfl, rfl, rfl, fun _ _ => rfl, rfl⟩, rfl⟩
  | _ => exact ⟨⟨rfl, rfl, rfl, rfl, fun _ _ => rfl, rfl⟩, trivial⟩

instance : Decidable (BootOwner w) := inferInstanceAs (Decidable (_ ∨ _))

/-- The tuning service is enabled and runs, next to a PPD unit. -/
def tuned (ppd : UnitFile) : World where
  ppd := ppd
  autostart := ⟨true, true, true, false, false, .active⟩
  record := false
  idle _ := true
  held _ := false
  excluded := false

/-- PPD is not installed. -/
def noPpd : UnitFile := ⟨false, false, false, false, false, .inactive⟩

/-- PPD is enabled and runs. -/
def runningPpd : UnitFile := ⟨true, true, true, false, false, .active⟩

/-- Without an Intel CPU, `disable` switches the only boot owner off. -/
theorem disable_leaves_no_boot_owner :
    BootOwner (tuned noPpd) ∧
    ∃ w' p, Program.Steps Answers (tuned noPpd) (main ⟨[.nvidia], false⟩ .disable ⟨false⟩) w' p ∧
      (p.result?.any fun x => x.1.isOk) = true ∧ ¬ BootOwner w' := by
  refine ⟨by decide, _, _, Program.Steps.of_runFor answers_succeeds 40 _ _, ?_, ?_⟩
  · decide
  · decide

/-- Taking the policy at boot from a running PPD. -/
theorem boot_owner_preserved_prepare_boot :
    ∃ w' p, Program.Steps Answers (tuned runningPpd) (main ⟨[.intel], false⟩ .prepareBoot ⟨false⟩)
      w' p ∧ (p.result?.any fun x => x.1.isOk) = true ∧ BootOwner w' := by
  have hrun := Program.Steps.of_runFor answers_succeeds 40 (tuned runningPpd)
    (main ⟨[.intel], false⟩ .prepareBoot ⟨false⟩)
  have hrecorded : Recorded ⟨[.intel], false⟩ (tuned runningPpd) :=
    fun h => absurd h (by decide)
  have hallowed : Command.prepareBoot.Allowed ⟨[.intel], false⟩ (tuned runningPpd).ppd.found :=
    fun h => absurd h (by decide)
  refine ⟨_, _, hrun, by decide, ?_⟩
  exact (boot_owner_preserved ⟨[.intel], false⟩ (tuned runningPpd) (tuned runningPpd) _ .prepareBoot
    ⟨false⟩ _ (by decide) hrecorded (.refl _) hallowed hrun).1

end Preseed.HardwareTuning.PolicyOwner
