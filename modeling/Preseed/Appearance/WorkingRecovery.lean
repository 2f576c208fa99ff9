import Preseed.Appearance.EngineChoices

/-!
# Recovery with working helpers

Where nothing fails, a recovery returns from every state that is consistent.
-/

namespace Preseed.Appearance

open Effects

variable {δ ν : Type} [DecidableEq δ] [DecidableEq ν] {lib : Library δ} {uid : ℕ} {allowed : List ν}
  {tokens : List ℕ} {P R : Desk lib ν → Prop} {journal : Change ν}

/-- The settings backend retains what it is given. -/
def EngineStep.Retains (w w' : Desk lib ν) : EngineStep lib ν → Prop
  | .setSetting key value => w' = { w with settings := w.settings.set key value }
  | _ => True

/-- The account and the greeter when nothing fails. -/
def flawless (uid : ℕ) : Environment (Engine lib ν) Unit (Desk lib ν) :=
  fun w s op answer w' => timely uid w s op answer w' ∧ (∃ reply, answer = .ok reply) ∧
    op.Retains w w'

/-- From `P`, a part of the engine that meets no failure returns in `Q`. -/
abbrev Returns (uid : ℕ) {α : Type} (P : Desk lib ν → Prop) (m : EngineAct lib ν α)
    (Q : α → Desk lib ν → Prop) : Prop :=
  Triple (flawless uid) (Environment.enabled (flawless uid)) P m Q fun _ => False

section Rules

variable {α β : Type}

/-- The rule of composition: what keeps the invariant is known between the parts. -/
theorem Returns.and_then {m : EngineAct lib ν α} {f : α → EngineAct lib ν β}
    {Q Q' : α → Desk lib ν → Prop} {Q'' : β → Desk lib ν → Prop} (hcourse : Course uid allowed P m Q R)
    (hm : Returns uid P m Q') (hf : ∀ a, Returns uid (fun w => Q a w ∧ Q' a w) (f a) Q'') :
    Returns uid P (m >>= f) Q'' := by
  refine .bind (Q := fun a w => Q a w ∧ Q' a w) (fun s w hw => ?_) hf
  have hsafe := (Program.Safe.mono (hcourse s w hw) (fun _ _ _ _ _ hr => hr.1)
    (fun _ _ _ hg => hg) fun _ _ hq => hq : Program.Safe (flawless uid) (Keeping uid allowed) _ _ w)
  refine (hsafe.and (hm s w hw)).mono (fun _ _ _ _ _ hr => hr) (fun _ _ _ hg => hg.2) ?_
  rintro ⟨e | a, s'⟩ w' h
  · exact h.2
  · exact h

theorem returns_step {op : EngineStep lib ν} {Q : op.Reply → Desk lib ν → Prop}
    (hrestorable : ∀ w, Restorable w () op)
    (hok : ∀ w, P w → ∃ a w', op.does uid OnTime w (.ok a) w' ∧ op.Retains w w')
    (hQ : ∀ w a w', P w → op.does uid OnTime w (.ok a) w' → op.Retains w w' → Q a w') :
    Returns uid P op.perform Q := by
  intro s w hw
  obtain ⟨a, w', hdoes, hretains⟩ := hok w hw
  refine ⟨⟨.ok a, w', ⟨hrestorable w, hdoes⟩, ⟨a, rfl⟩, hretains⟩, fun answer w'' hstep => ?_⟩
  obtain ⟨hstep, ⟨reply, rfl⟩, hretains⟩ := hstep
  exact hQ w reply w'' hw hstep.2 hretains

theorem returns_read {name : ν} {limit : ℕ} (h : ∀ w, P w → size (w.file name) ≤ limit) :
    Returns uid P (home.read name limit) (fun data w => P w ∧ data = w.file name) := by
  refine returns_step (fun _ => trivial) (fun w hw => ⟨w.file name, w, ⟨rfl, ?_⟩, trivial⟩)
    fun w data w' hw hdoes _ => ?_
  · intro data hdata
    cases hdata
    exact ⟨rfl, h w hw⟩
  · obtain ⟨rfl, hdata⟩ := hdoes
    exact ⟨hw, (hdata data rfl).1⟩

end Rules

section Recovery

theorem returns_validate (h : journal.toJournal.Valid allowed) :
    Returns uid P (validate allowed journal.toJournal : EngineAct lib ν Unit) (fun _ => P) :=
  Triple.ite (fun _ => .pure fun _ hw => hw) fun hno => (hno h).elim

omit [DecidableEq δ] [DecidableEq ν] in
/-- The images of a valid journal are read within the limit. -/
theorem Recorded.small {w : Desk lib ν} (h : Recorded allowed tokens journal w) {image : Image ν}
    (himage : image ∈ journal.images) : size image.old ≤ maxText ∧ size image.new ≤ maxText := by
  have hsizes := (h.valid.1 image himage).2
  have hlimit : maxImageBytes ≤ maxText := by decide
  exact ⟨Nat.le_trans hsizes.1 hlimit, Nat.le_trans hsizes.2 hlimit⟩

omit [DecidableEq δ] [DecidableEq ν] in
theorem Written.size_le {w : Desk lib ν} (h : Written uid allowed tokens journal w)
    {image : Image ν} (himage : image ∈ journal.images) : size (w.file image.name) ≤ maxText := by
  rcases h.current image himage with hold | hnew
  · exact hold ▸ (h.toRecorded.small himage).1
  · exact hnew ▸ (h.toRecorded.small himage).2

theorem returns_rollback : Returns uid (Written uid allowed tokens journal)
    (rollback home journal.toJournal : EngineAct lib ν Unit)
    (fun _ => Written uid allowed tokens journal) := by
  refine .bind (Q := fun _ => Written uid allowed tokens journal)
    (.forEach_const fun image himage => ?_) fun _ =>
      Triple.forEach_const fun image himage => ?_
  · refine .bind (returns_read fun _ hw => hw.size_le himage) fun current =>
      Triple.ite (fun _ => .pure fun _ hw => hw.1) fun hno => .raise fun w hw => hno ?_
    obtain ⟨hw, rfl⟩ := hw
    exact (hw.current image himage).imp_right fun hnew => ⟨rfl, hnew⟩
  · have hmem : image ∈ journal.images := List.mem_reverse.1 himage
    refine .bind (returns_read fun w hw => hw.size_le hmem) fun current =>
      Triple.ite (fun _ => .pure fun _ hw => hw.1) fun _ => ?_
    refine returns_step (fun _ => trivial) (fun w _ => ⟨(), _, .inl rfl, trivial⟩)
      fun _ _ _ hw hdoes _ => ?_
    rcases hdoes with rfl | ⟨⟨e, he⟩, -⟩
    · exact hw.1.setFile hmem (.inl rfl)
    · cases he

theorem returns_setSetting {key : Key} {value : Bytes} (h : settingMatches value = true) :
    Returns uid P (setSetting key value : EngineAct lib ν Unit)
      (fun _ w' => ∃ w, P w ∧ w' = { w with settings := w.settings.set key value }) :=
  Triple.ite (fun _ => returns_step (fun _ => trivial)
    (fun _ _ => ⟨(), _, .inl rfl, rfl⟩) fun w _ _ hw _ hretains => ⟨w, hw, hretains⟩)
      fun hno => (hno h).elim

/-- Settings that match the pattern can be restored. -/
theorem returns_setSettings {values : Settings} (h : values.Accepted) :
    Returns uid P (setSettings values : EngineAct lib ν Unit) (fun _ _ => True) := by
  refine .bind (returns_setSetting h.1) fun _ => .bind (returns_setSetting h.2) fun _ =>
    Triple.bind (Q := fun (observed : Settings) _ => observed = values)
      (returns_step (fun _ => trivial) (fun w _ => ⟨w.settings, w, ⟨rfl, ?_⟩, trivial⟩)
        fun _ observed _ hw hdoes _ => ?_) fun observed =>
          Triple.ite (fun _ => .pure fun _ _ => trivial) fun hno => .raise fun _ hw => hno hw
  · intro settings hsettings
    cases hsettings
    rfl
  · obtain ⟨_, ⟨w₁, -, rfl⟩, rfl⟩ := hw
    exact hdoes.2 observed rfl

theorem returns_recoverGreeter_written : Returns uid (Written uid allowed tokens journal)
    (recoverGreeter journal : EngineAct lib ν Bool) (fun failed _ => failed = false) := by
  refine .assume (fun _ hw => hw.prepared) fun hphase => ?_
  simp only [recoverGreeter, hphase, Phase.action]
  refine .ite (fun h => .handle (S := fun _ => False) (.bind
    (Q := fun _ _ => True) (returns_step (fun _ => trivial) (fun w hw => ?_) fun _ _ _ _ _ _ => trivial)
      fun _ => .pure fun _ _ => rfl) fun _ => .assume (p := False) (fun _ hw => hw)
        fun h => h.elim) fun _ => .pure fun _ _ => rfl
  obtain ⟨g, hrun⟩ := rollback_returns lib (hw.undecided.undoable h.1)
  exact ⟨(), _, ⟨w, .refl, g, hrun, rfl⟩, trivial⟩

theorem returns_recoverGreeter_committed : Returns uid (Committed uid allowed tokens journal)
    (recoverGreeter journal : EngineAct lib ν Bool) (fun failed _ => failed = false) := by
  refine .assume (fun _ hw => hw.committed) fun hphase => ?_
  simp only [recoverGreeter, hphase, Phase.action]
  refine .ite (fun h => .handle (S := fun _ => False) (.bind
    (Q := fun _ _ => True) (returns_step (fun _ => trivial) (fun w hw => ?_) fun _ _ _ _ _ _ => trivial)
      fun _ => .pure fun _ _ => rfl) fun _ => .assume (p := False) (fun _ hw => hw)
        fun h => h.elim) fun _ => .pure fun _ _ => rfl
  obtain ⟨g, hrun⟩ := commit_returns lib (hw.decided.committing h.1)
  exact ⟨(), _, ⟨w, .refl, g, hrun, rfl⟩, trivial⟩

theorem returns_recoverLocal : Returns uid (Written uid allowed tokens journal)
    (recoverLocal journal : EngineAct lib ν Unit) (fun _ _ => True) := by
  refine .ite (fun _ => .bind returns_rollback fun _ => ?_) fun _ =>
    Triple.pure fun _ _ => trivial
  cases hold : journal.oldSettings with
  | none => exact .pure fun _ _ => trivial
  | some old =>
    exact .assume (fun _ hw => hw.accepted old hold) fun haccepted =>
      returns_setSettings haccepted

theorem returns_finishRecovery : Returns uid P
    (finishRecovery journal false : EngineAct lib ν Unit) (fun _ _ => True) := by
  refine .bind (Q := fun _ _ => True) (.ite (fun _ => returns_step (fun _ => trivial)
    (fun w _ => ⟨(), w, rfl, trivial⟩) fun _ _ _ _ _ _ => trivial) fun _ =>
      Triple.pure fun _ _ => trivial) fun _ => ?_
  exact .ite (fun h => by cases h) fun _ => returns_step (fun _ => trivial)
    (fun w _ => ⟨(), _, .inl rfl, trivial⟩) fun _ _ _ _ _ _ => trivial

theorem returns_recover_waiting : Returns uid (Waiting allowed tokens journal)
    (recoverChange allowed journal : EngineAct lib ν Bool) (fun _ _ => True) := by
  refine .assume (p := journal.filesStarted = false ∧ journal.toJournal.Valid allowed)
    (fun _ hw => ⟨hw.notStarted, hw.valid⟩) fun hjournal => ?_
  refine .bind (returns_validate hjournal.2) fun _ => .bind
    (Q := fun failed _ => failed = false) (.ite (fun h => ?_) fun _ =>
      Triple.pure fun _ _ => rfl) fun failed => .assume (fun _ hw => hw) fun hfailed => ?_
  · cases hjournal.1.symm.trans h.2
  · subst hfailed
    refine .bind (Q := fun _ _ => True) (.ite (fun h => ?_) fun _ =>
      Triple.pure fun _ _ => trivial) fun _ => .bind returns_finishRecovery fun _ =>
        Triple.pure fun _ _ => trivial
    cases hjournal.1.symm.trans h.2

theorem returns_recover_written : Returns uid (Written uid allowed tokens journal)
    (recoverChange allowed journal : EngineAct lib ν Bool) (fun _ _ => True) := by
  refine .assume (fun _ hw => hw.valid) fun hvalid => ?_
  refine .bind (returns_validate hvalid) fun _ =>
    Returns.and_then course_recoverGreeter returns_recoverGreeter_written fun failed =>
      Triple.assume (fun _ hw => hw.2) fun hfailed => ?_
  subst hfailed
  exact .bind (returns_recoverLocal.before fun _ hw => hw.1.1) fun _ =>
    Triple.bind returns_finishRecovery fun _ => .pure fun _ _ => trivial

theorem returns_recover_committed : Returns uid (Committed uid allowed tokens journal)
    (recoverChange allowed journal : EngineAct lib ν Bool) (fun _ _ => True) := by
  refine .assume (p := journal.phase = .committed ∧ journal.toJournal.Valid allowed)
    (fun _ hw => ⟨hw.committed, hw.valid⟩) fun hjournal => ?_
  refine .bind (returns_validate hjournal.2) fun _ =>
    Triple.bind returns_recoverGreeter_committed fun failed =>
      Triple.assume (fun _ hw => hw) fun hfailed => ?_
  subst hfailed
  refine .bind (Q := fun _ _ => True) (.ite (fun h => ?_) fun _ =>
    Triple.pure fun _ _ => trivial) fun _ => .bind returns_finishRecovery fun _ =>
      Triple.pure fun _ _ => trivial
  cases hjournal.1.symm.trans h.1

/-- Where nothing fails, `recover` returns. -/
theorem returns_recover : Returns uid (Consistent uid allowed [])
    (recover allowed : EngineAct lib ν Bool) (fun _ _ => True) := by
  have hcourse : Course uid allowed (Consistent uid allowed [])
      (EngineStep.perform (.readJournal : EngineStep lib ν)) _ (Consistent uid allowed []) :=
    course_readJournal fun _ hw => hw
  have hread : Returns uid (Consistent uid allowed [])
      (EngineStep.perform (.readJournal : EngineStep lib ν)) (fun _ _ => True) := by
    refine returns_step (fun _ => trivial) (fun w _ => ⟨w.journal, w, ⟨rfl, ?_, ?_⟩, trivial⟩)
      fun _ _ _ _ _ _ => trivial
    · exact fun hnone => Except.ok.inj hnone
    · exact fun journal hsome => ⟨journal, Except.ok.inj hsome, rfl, .refl _⟩
  refine Returns.and_then hcourse hread fun pending => ?_
  cases pending with
  | none => exact .pure fun _ _ => trivial
  | some journal =>
    exact (returns_recover_waiting.or (returns_recover_written.or returns_recover_committed)).before
      fun _ hw => phases_of_read hw.1

end Recovery

end Preseed.Appearance
