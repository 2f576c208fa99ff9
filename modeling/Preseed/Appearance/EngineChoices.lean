import Preseed.Appearance.EngineOperations

/-!
# Choices

Every step of a choice keeps the invariant: its journal is recorded before a file changes, and the
commitment is recorded when the account and the greeter have both changed.
-/

namespace Preseed.Appearance

open Effects

variable {δ ν : Type} [DecidableEq ν] {lib : Library δ} {uid : ℕ} {allowed : List ν}
  {P R : Desk lib ν → Prop} {journal : Change ν}

section Updates

/-- Updates of different files, all of them managed. -/
def Assigned (allowed : List ν) (updates : List (ν × Option Bytes)) : Prop :=
  (updates.map Prod.fst).Nodup ∧ ∀ update ∈ updates, update.1 ∈ allowed

variable {updates : List (ν × Option Bytes)}

theorem Assigned.assign (h : Assigned allowed updates) {name : ν} (hname : name ∈ allowed)
    (data : Option Bytes) : Assigned allowed (assign updates name data) := by
  unfold Appearance.assign
  split
  case isTrue hmem =>
    have hnames : (updates.map fun update => if update.1 = name then (name, data) else update).map
        Prod.fst = updates.map Prod.fst := by
      rw [List.map_map]
      refine List.map_congr_left fun update _ => ?_
      simp only [Function.comp]
      split
      · exact Eq.symm ‹_›
      · rfl
    refine ⟨hnames ▸ h.1, fun update hupdate => ?_⟩
    obtain ⟨other, hother, rfl⟩ := List.mem_map.1 hupdate
    split
    · exact hname
    · exact h.2 other hother
  case isFalse hmem =>
    refine ⟨?_, fun update hupdate => ?_⟩
    · rw [List.map_append]
      exact h.1.append (List.nodup_singleton _) (by simpa using hmem)
    · rcases List.mem_append.1 hupdate with hupdate | hupdate
      · exact h.2 update hupdate
      · obtain rfl := List.mem_singleton.1 hupdate
        exact hname

variable [DecidableEq δ]

theorem course_collect (choice : Choice lib ν allowed) (hR : ∀ w, P w → R w) :
    Course uid allowed P (collect choice) (fun updates w => P w ∧ Assigned allowed updates) R := by
  have hloop := Triple.fold (ε := Fault) (E := (timely uid : Environment (Engine lib ν) Unit (Desk lib ν)))
    (G := Keeping uid allowed)
    (σ := Unit) (R := R) (l := choice.files) (f := collectFile) (b := [])
    (fun rest updates w => (P w ∧ Assigned allowed updates) ∧ ∀ file ∈ rest, file.1 ∈ allowed) ?_
  · refine .bind (hloop.before fun w hw => ⟨⟨hw, by simp [Assigned]⟩, choice.files_allowed⟩)
      fun updates => .pure fun w hw => ⟨hw.1.1, hw.1.2.assign choice.config_allowed _⟩
  intro file rest updates
  refine .bind (reading_home _ R file.1 maxText fun w hw => hR w hw.1.1) fun raw =>
    Triple.bind (.lift (fun _ _ _ hw => hw.1) fun w hw => hR w hw.1.1.1) fun value => ?_
  cases value with
  | none =>
    exact .pure fun w hw => ⟨hw.1, fun other hother => hw.2 other (List.mem_cons_of_mem _ hother)⟩
  | some data =>
    exact .pure fun w hw => ⟨⟨hw.1.1, hw.1.2.assign (hw.2 file (List.mem_cons_self ..)) _⟩,
      fun other hother => hw.2 other (List.mem_cons_of_mem _ hother)⟩

theorem course_collectDock (choice : Choice lib ν allowed) (hupdates : Assigned allowed updates)
    (hR : ∀ w, P w → R w) :
    Course uid allowed P (Act.fold collectDock updates choice.dockFiles)
      (fun updates w => P w ∧ Assigned allowed updates) R := by
  have hloop := Triple.fold (ε := Fault) (E := (timely uid : Environment (Engine lib ν) Unit (Desk lib ν)))
    (G := Keeping uid allowed)
    (σ := Unit) (R := R) (l := choice.dockFiles) (f := collectDock) (b := updates)
    (fun rest updates w => (P w ∧ Assigned allowed updates) ∧ ∀ file ∈ rest, file.1 ∈ allowed) ?_
  · exact hloop.mono (fun w hw => ⟨⟨hw, hupdates⟩, choice.dock_allowed⟩) (fun _ _ hw => hw.1)
      fun _ hw => hw
  intro file rest updates
  refine .bind (reading_home _ R file.1 maxText fun w hw => hR w hw.1.1) fun raw => ?_
  cases raw with
  | none => exact .raise fun w hw => hR w hw.1.1.1
  | some source =>
    refine .bind (.lift (fun _ _ _ hw => hw.1) fun w hw => hR w hw.1.1.1) fun value =>
      Triple.pure fun w hw => ⟨⟨hw.1.1, hw.1.2.assign (hw.2 file (List.mem_cons_self ..)) _⟩,
        fun other hother => hw.2 other (List.mem_cons_of_mem _ hother)⟩

end Updates

section Phases

variable {w : Desk lib ν}

omit [DecidableEq ν] in
/-- What `plan` made of the files that are there can be recorded. -/
theorem waiting_of_planned {updates : List (ν × Option Bytes)}
    (hbase : (w.record (some journal)).base = w.snapshot)
    (hplanned : Planned updates journal.images w.file)
    (hsub : (journal.images.map Image.name).Sublist (updates.map Prod.fst))
    (hassigned : Assigned allowed updates) (hphase : journal.phase = .prepared)
    (hstarted : journal.filesStarted = false)
    (hsettings : journal.oldSettings = none ∧ journal.newSettings = none ∨
      journal.oldSettings = some w.settings ∧ journal.newSettings ≠ none)
    (hstill : Still w.greeter.file w) (hrolled : journal.token ∉ w.rolledBack)
    (hlate : ∀ request ∈ w.late, request.token ≠ journal.token) :
    Waiting allowed [] journal (w.record (some journal)) where
  stored := ⟨journal, rfl, rfl, rfl, .refl _⟩
  valid := ⟨fun image himage => ⟨hassigned.2 _ (hplanned.each image himage).2.1,
    (hplanned.each image himage).2.2⟩, hplanned.total⟩
  nodup := hsub.nodup hassigned.1
  old image himage := by
    rw [hbase]
    exact (hplanned.each image himage).1
  frame name _ := by
    rw [hbase]
    rfl
  unchanged hnone := by
    rw [hbase]
    rcases hsettings with h | h
    · exact ⟨h.2, rfl⟩
    · cases hnone.symm.trans h.1
  oldSettings old hold := by
    rw [hbase]
    rcases hsettings with h | h
    · cases hold.symm.trans h.1
    · exact ⟨Option.some.inj (hold.symm.trans h.1), h.2⟩
  fresh := by simp
  prepared := hphase
  notStarted := hstarted
  files := by
    rw [hbase]
    rfl
  settings := by
    rw [hbase]
    rfl
  unasked := by
    refine ⟨?_, hrolled, hlate⟩
    rw [hbase]
    exact hstill

omit [DecidableEq ν] in
theorem Recorded.base_record {tokens : List ℕ} (h : Recorded allowed tokens journal w)
    (change : Change ν) : (w.record (some change)).base = w.base := by
  obtain ⟨stored, hstored, -⟩ := h.stored
  simp [Desk.record, hstored]

omit [DecidableEq ν] in
/-- The files may be written once the journal says so. -/
theorem Waiting.start (h : Waiting allowed [] journal w)
    (haccepted : ∀ old, journal.oldSettings = some old → old.Accepted) :
    Written uid allowed [] { journal with filesStarted := true }
        (w.record (some { journal with filesStarted := true })) ∧
      Unasked { journal with filesStarted := true }
        (w.record (some { journal with filesStarted := true })) := by
  have hbase := h.toRecorded.base_record { journal with filesStarted := true }
  have hunasked : Unasked { journal with filesStarted := true }
      (w.record (some { journal with filesStarted := true })) := by
    refine ⟨?_, h.unasked.2.1, h.unasked.2.2⟩
    rw [hbase]
    exact h.unasked.1
  refine ⟨?_, hunasked⟩
  exact {
    stored := ⟨_, rfl, rfl, rfl, .refl _⟩
    valid := h.valid
    nodup := h.nodup
    old := hbase ▸ h.old
    frame := hbase ▸ h.frame
    unchanged := hbase ▸ h.unchanged
    oldSettings := hbase ▸ h.oldSettings
    fresh := by simp
    prepared := h.prepared
    started := rfl
    accepted := haccepted
    current := fun image himage => .inl <| by
      rw [← h.old image himage]
      exact congrFun h.files image.name
    undecided := {
      undoable := fun _ => .inl hunasked.1.1
      apply := fun _ request hrequest happly => .inl (h.unasked.1.2 request hrequest happly)
      commit := fun _ request hrequest _ => h.unasked.2.2 request hrequest
      still := fun _ => hunasked.1 } }

omit [DecidableEq ν] in
/-- The commitment is recorded when both sides have changed. -/
theorem Written.commit (h : Written uid allowed [] journal w) (hrenewed : Renewed w.file journal.toJournal)
    (hsettled : ∀ new, journal.newSettings = some new → w.settings = new)
    (hdecided : Decided uid journal w) :
    Committed uid allowed [] { journal with phase := .committed }
      (w.record (some { journal with phase := .committed })) := by
  have hbase := h.toRecorded.base_record { journal with phase := .committed }
  exact {
    stored := ⟨_, rfl, rfl, rfl, .refl _⟩
    valid := h.valid
    nodup := h.nodup
    old := hbase ▸ h.old
    frame := hbase ▸ h.frame
    unchanged := hbase ▸ h.unchanged
    oldSettings := hbase ▸ h.oldSettings
    fresh := by simp
    committed := rfl
    started := h.started
    renewed := hrenewed
    settled := hsettled
    decided := {
      edited := hbase ▸ hdecided.edited
      committing := hdecided.committing
      apply := hdecided.apply
      rollback := hdecided.rollback
      still := hbase ▸ hdecided.still } }

end Phases

section Apply

variable [DecidableEq δ] {updates : List (ν × Option Bytes)}

/-- The journal after the dock has stopped differs in its images. -/
def Replanned (journal ready : Change ν) : Prop :=
  ready.greeter = journal.greeter ∧ ready.newSettings = journal.newSettings ∧
    ready.token = journal.token

theorem course_quiesceIf (choice : Choice lib ν allowed) (hupdates : Assigned allowed updates) :
    Course uid allowed (Waiting allowed [] journal) (quiesceIf choice updates journal)
      (fun ready w => Waiting allowed [] ready w ∧ Replanned journal ready)
      (Consistent uid allowed []) := by
  refine .ite (fun _ => ?_) fun _ => .pure fun w hw => ⟨hw, rfl, rfl, rfl⟩
  refine .bind (course_same (fun _ _ _ h => h) fun _ hw => hw.consistent) fun _ =>
    Triple.bind (course_collectDock choice hupdates fun _ hw => hw.consistent) fun updates =>
      Triple.bind (triple_plan reading_home updates choice.token fun _ hw => hw.1.consistent)
        fun planned => .bind (course_putChange
          (Q := Waiting allowed [] { journal with images := planned.images })
          (fun w hw _ => ?_) fun _ hw => hw.consistent) fun _ => .pure fun w hw =>
            ⟨hw, rfl, rfl, rfl⟩
  obtain ⟨⟨hw, hassigned⟩, -, -, hplanned, hsub⟩ := hw
  refine ⟨hw.consistent, waiting_of_planned ?_ hplanned hsub hassigned hw.prepared hw.notStarted ?_
    hw.unasked.1.self hw.unasked.2.1 hw.unasked.2.2⟩
  · rw [hw.toRecorded.base_record, Desk.snapshot, hw.files, hw.settings, hw.unasked.1.1.1]
  · cases hold : journal.oldSettings with
    | none => exact .inl ⟨rfl, (hw.unchanged hold).1⟩
    | some old =>
      rw [hw.settings]
      exact .inr ⟨congrArg some (hw.oldSettings old hold).1, (hw.oldSettings old hold).2⟩

/-- What is known while the account changes. -/
def Changed (uid : ℕ) (allowed : List ν) (journal : Change ν) (w : Desk lib ν) : Prop :=
  Written uid allowed [] journal w ∧ Unasked journal w ∧ Renewed w.file journal.toJournal

theorem course_applySettings {settings : Option Settings} (hsettings : journal.newSettings = settings) :
    Course uid allowed (Changed uid allowed journal) (applySettings settings : EngineAct lib ν Unit)
      (fun _ w => Changed uid allowed journal w ∧
        ∀ new, journal.newSettings = some new → w.settings = new)
      (Consistent uid allowed []) := by
  cases settings with
  | none =>
    refine .pure fun w hw => ⟨hw, fun new hnew => ?_⟩
    cases hnew.symm.trans hsettings
  | some values =>
    refine .assume (p := journal.oldSettings ≠ none) (fun w hw hnone => ?_) fun hold => ?_
    · cases (hw.1.unchanged hnone).1.symm.trans hsettings
    · refine (course_setSettings (X := fun w => Unasked journal w ∧ Renewed w.file journal.toJournal)
        (fun _ _ hx => hx) hold values).mono (fun _ hw => hw) (fun _ w hw => ⟨hw.1, fun new hnew => ?_⟩)
          fun _ hw => hw.1.consistent
      exact hw.2.trans (Option.some.inj (hsettings.symm.trans hnew))

/-- What is known before the commitment. -/
def Complete (uid : ℕ) (allowed : List ν) (journal : Change ν) (w : Desk lib ν) : Prop :=
  (Written uid allowed [] journal w ∧ Renewed w.file journal.toJournal ∧
    ∀ new, journal.newSettings = some new → w.settings = new) ∧ Decided uid journal w

theorem course_applyGreeter (choice : Choice lib ν allowed)
    (hgreeter : journal.greeter = choice.greeter.isSome) (htoken : journal.token = choice.token) :
    Course uid allowed (fun w => Changed uid allowed journal w ∧
        ∀ new, journal.newSettings = some new → w.settings = new)
      (applyGreeter choice) (fun _ => Complete uid allowed journal) (Consistent uid allowed []) := by
  unfold applyGreeter
  cases hchoice : choice.greeter with
  | none =>
    have hno : journal.greeter = false := by simp [hgreeter, hchoice]
    refine .pure fun w hw => ⟨⟨hw.1.1, hw.1.2.2, hw.2⟩, ?_, ?_, ?_, ?_, fun _ => hw.1.2.1.1⟩
    all_goals
      intro hyes
      cases hno.symm.trans hyes
  | some edits =>
    rw [← htoken]
    refine (course_apply (X := fun w => Renewed w.file journal.toJournal ∧
      ∀ new, journal.newSettings = some new → w.settings = new) ?_ edits).mono (fun w hw => ?_)
        (fun _ _ hw => hw) fun _ hw => hw.consistent
    · intro w w' hsame hx
      rw [hsame.file, hsame.settings]
      exact hx
    · exact ⟨⟨⟨hw.1.1, hw.1.2.2, hw.2⟩, hw.1.2.1⟩, by simp [hgreeter, hchoice]⟩

theorem course_apply_files {started : Change ν} (hsame : journal.toJournal = started.toJournal) :
    Course uid allowed (fun w => Written uid allowed [] started w ∧ Unasked started w)
      (apply home journal.toJournal : EngineAct lib ν Unit)
      (fun _ => Changed uid allowed started) (Consistent uid allowed []) := by
  refine .assume (fun _ hw => hw.1.nodup) fun hnodup => ?_
  rw [hsame]
  exact (triple_apply reading_home hnodup fun image himage => writing_home
    (X := Unasked started) (fun _ _ hx => hx) himage (.inr rfl)).mono (fun _ hw => hw)
      (fun _ w hw => ⟨hw.1.1, hw.1.2, hw.2⟩) fun _ hw => hw.1.consistent

theorem course_writeChange (choice : Choice lib ν allowed)
    (hgreeter : journal.greeter = choice.greeter.isSome)
    (hsettings : journal.newSettings = choice.settings) (htoken : journal.token = choice.token) :
    Course uid allowed (Waiting allowed [] journal) (writeChange choice journal)
      (fun _ => Committed uid allowed [] { journal with filesStarted := true, phase := .committed })
      (Consistent uid allowed []) := by
  let started : Change ν := { journal with filesStarted := true }
  refine .bind (course_putChange (Q := fun w =>
    Written uid allowed [] started w ∧ Unasked started w) (fun w hw hrestorable => ⟨hw.consistent,
      hw.start fun old hold => hrestorable rfl old hold⟩) fun _ hw => hw.1.consistent) fun _ => ?_
  have hsame : journal.toJournal = started.toJournal := rfl
  refine .bind (course_apply_files hsame) fun _ => .bind
    (course_applySettings hsettings) fun _ => .bind (.ite (fun _ =>
      course_same (fun _ _ _ h => h) fun _ hw => hw.1.1.consistent) fun _ =>
        Triple.pure fun _ hw => hw) fun _ => .bind
          (course_applyGreeter choice hgreeter htoken) fun _ => ?_
  exact course_putChange (fun w hw _ => ⟨hw.1.1.consistent,
    hw.1.1.commit hw.1.2.1 hw.1.2.2 hw.2⟩) fun _ hw => hw.consistent

/-- A change that is committed, for a choice. -/
def CommittedFor (uid : ℕ) (choice : Choice lib ν allowed) (w : Desk lib ν) : Prop :=
  ∃ journal, Committed uid allowed [] journal w ∧ journal.greeter = choice.greeter.isSome ∧
    journal.token = choice.token

theorem course_attempt (choice : Choice lib ν allowed) (hupdates : Assigned allowed updates)
    (hgreeter : journal.greeter = choice.greeter.isSome)
    (hsettings : journal.newSettings = choice.settings) (htoken : journal.token = choice.token) :
    Course uid allowed (Waiting allowed [] journal) (attempt choice updates journal)
      (fun _ => CommittedFor uid choice) (Consistent uid allowed []) := by
  refine .bind (course_quiesceIf choice hupdates) fun ready =>
    Triple.assume (fun _ hw => hw.2) fun hready => ?_
  refine (course_writeChange choice (hready.1.trans hgreeter) (hready.2.1.trans hsettings)
    (hready.2.2.trans htoken)).mono (fun _ hw => hw.1) (fun _ w hw => ?_) fun _ hw => hw
  exact ⟨_, hw, hready.1.trans hgreeter, hready.2.2.trans htoken⟩

theorem course_finishChange (choice : Choice lib ν allowed) (dockRunning : Bool) :
    Course uid allowed (CommittedFor uid choice) (finishChange choice dockRunning)
      (fun _ => Ended []) (Consistent uid allowed []) := by
  refine .exists_pre fun journal => ?_
  refine .assume (fun _ hw => hw.2) fun hjournal => ?_
  refine .bind (Q := fun _ w => Committed uid allowed [] journal w ∧ Still w.greeter.file w)
    (.ite (fun hsome => ?_) fun hnone => .pure fun w hw => ⟨hw.1, ?_⟩) fun _ => ?_
  · rw [← hjournal.2]
    exact course_commit.mono (fun _ hw => ⟨hw.1, hjournal.1.trans hsome⟩) (fun _ _ hw => hw)
      fun _ hw => hw.consistent
  · exact (hw.1.decided.still (by simpa [hjournal.1] using hnone)).self
  · refine .bind (.ite (fun _ => course_same (fun _ _ _ h => h)
      fun _ hw => hw.1.consistent) fun _ => .pure fun _ hw => hw) fun _ => ?_
    exact course_removeChange fun w hw => ⟨hw.1.consistent, hw.1.ended hw.2⟩

/-- The rule of `apply_choice`. -/
theorem course_applyChoice (choice : Choice lib ν allowed) :
    Course uid allowed (Consistent uid allowed [choice.token]) (applyChoice choice)
      (fun _ => Ended []) (Consistent uid allowed []) := by
  refine .bind course_recover fun _ => ?_
  refine .bind (Q := fun _ => Ended [choice.token]) (.ite (fun _ =>
    course_same (fun _ _ _ h => h) fun _ hw => hw.consistent) fun _ => .pure fun _ hw => hw)
      fun running => ?_
  refine .bind (Q := fun old w => Ended [choice.token] w ∧
    (old = none ∧ choice.settings = none ∨ old = some w.settings ∧ choice.settings ≠ none)) ?_
      fun old => ?_
  · unfold recordSettings
    cases choice.settings with
    | none => exact .pure fun w hw => ⟨hw, .inl ⟨rfl, rfl⟩⟩
    | some new =>
      exact .bind (course_getSettings fun _ hw => hw.consistent) fun settings =>
        Triple.pure fun w hw => ⟨hw.1, .inr ⟨congrArg some hw.2, by simp⟩⟩
  refine .bind (course_collect choice fun _ hw => hw.1.consistent) fun updates =>
    Triple.bind (triple_plan reading_home updates choice.token fun _ hw => hw.1.1.consistent)
      fun planned => .bind (triple_validate allowed planned fun _ hw => hw.1.1.1.consistent)
        fun _ => .bind (course_putChange
          (Q := fun w => Waiting allowed [] (changeOf choice planned running old) w ∧
            Assigned allowed updates ∧ planned.token = choice.token) (fun w hw _ => ?_)
              fun _ hw => hw.1.consistent) fun _ => ?_
  · obtain ⟨⟨⟨⟨hended, hold⟩, hassigned⟩, hphase, htoken, hplanned, hsub⟩, -⟩ := hw
    have hfresh := hended.fresh choice.token (List.mem_singleton.2 rfl)
    have hown : (changeOf choice planned running old).token = choice.token := htoken
    refine ⟨hended.consistent, waiting_of_planned ?_ hplanned hsub hassigned hphase rfl hold
      hended.still (hown ▸ hfresh.1) (hown ▸ hfresh.2.1), hassigned, htoken⟩
    simp [Desk.record, hended.journal]
  · refine .assume (fun _ hw => hw.2) fun hknown => ?_
    refine .bind (.handle ((course_attempt choice hknown.1 rfl rfl hknown.2).before
      fun _ hw => hw.1) fun e => ?_) fun _ => course_finishChange choice running
    exact .bind (course_recover.mono (fun _ hw => hw) (fun _ _ hw => hw) fun _ hw => hw)
      fun _ => .raise fun _ hw => hw.consistent

end Apply

end Preseed.Appearance
