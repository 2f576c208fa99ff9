import Preseed.Appearance.GreeterOperations

/-!
# Runs of greeter operations

Operations of any accounts follow each other under the lock, and each may be stopped at any step.
A pending journal can be cleared by its own kind of operation, unless it is a committed journal of
field updates whose files are not its new images.
-/

namespace Preseed.Appearance

open Effects

variable {δ : Type} [DecidableEq δ] {lib : Library δ} {torn : Bool}

/-- The greeter after any number of operations, the last of which may be under way or stopped. -/
inductive Reaches (lib : Library δ) (torn : Bool) : Greeter δ → Prop
  | start {w : Greeter δ} (hjournal : ∀ kind, w.journal kind = none)
      (hprovided : ∀ sheet, Provided lib w.file (w.file (.sheet sheet))) : Reaches lib torn w
  | run {w w' : Greeter δ} {operation : Operation lib}
      {p : Program (Helper δ) Unit (Except Fault Unit × Unit)} (before : Reaches lib torn w)
      (steps : Program.Steps (greeter torn) w (operation.run ()) w' p) : Reaches lib torn w'

/-- The invariant holds wherever the operations are stopped. -/
theorem sound_reaches (hlib : lib.Lawful) {w : Greeter δ} (h : Reaches lib torn w) :
    Sound lib torn w := by
  induction h with
  | start hjournal hprovided =>
    refine ⟨fun kind _ hkind => (hkind (hjournal kind)).elim, fun kind journal hkind => ?_,
      hprovided⟩
    cases (hjournal kind).symm.trans hkind
  | @run w w' operation p before steps ih =>
    have hsafe := rule_operation hlib operation () w ih
    exact (Program.Safe.of_invariant sound_step hsafe ih).invariant sound_step steps ih

section Working

/-- How a step is answered when nothing fails. -/
def answered (w : Greeter δ) (_ : Unit) : (op : Step δ) → (Helper δ).Res op × Greeter δ
  | .read name limit => (if size (w.file name) ≤ limit then .ok (w.file name) else .error .valueError, w)
  | .write name data replace =>
    if replace = false ∧ w.file name ≠ none then (.error .osError, w)
    else (.ok (), w.setFile name data)
  | .scan => (.ok [], w)
  | .readJournal kind => (.ok (w.journal kind), w)
  | .writeJournal kind journal => (.ok (), w.setJournal kind journal)

/-- The greeter when nothing fails. -/
def working : Environment (Helper δ) Unit (Greeter δ) :=
  fun w s op answer w' => (answer, w') = answered w s op

omit [DecidableEq δ] in
theorem Journal.Same.refl {ν : Type} (journal : Journal ν) : journal.Same journal :=
  ⟨rfl, rfl, rfl, .refl _⟩

/-- Nothing needs to fail. -/
theorem greeter_of_working (w : Greeter δ) (s : Unit) (op : Step δ) (answer : (Helper δ).Res op)
    (w' : Greeter δ) (h : working w s op answer w') : greeter torn w s op answer w' := by
  obtain ⟨rfl, rfl⟩ := Prod.mk.inj h
  cases op with
  | read name limit =>
    refine ⟨⟨rfl, fun data hdata => ?_⟩, fun _ => trivial⟩
    simp only at hdata
    split at hdata
    · cases hdata
      exact ⟨rfl, ‹_›⟩
    · cases hdata
  | scan => exact ⟨rfl, fun _ => trivial⟩
  | readJournal kind =>
    refine ⟨⟨rfl, fun hnone => Except.ok.inj hnone, fun journal hsome => ?_⟩, fun _ => trivial⟩
    exact ⟨journal, Except.ok.inj hsome, .refl journal⟩
  | write name data replace =>
    refine ⟨?_, fun _ => trivial⟩
    by_cases hexists : replace = false ∧ w.file name ≠ none
    · simp only [if_pos hexists]
      exact ⟨.inr ⟨⟨_, rfl⟩, rfl⟩, fun _ _ => ⟨⟨_, rfl⟩, rfl⟩⟩
    · simp only [if_neg hexists]
      exact ⟨.inl rfl, fun hreplace hfile => (hexists ⟨hreplace, hfile⟩).elim⟩
  | writeJournal kind journal =>
    refine ⟨.inl rfl, fun _ => ?_⟩
    cases kind <;> cases journal <;> first | trivial | exact fun _ ⟨_, he⟩ => by cases he

/-- From `P`, a part of an operation returns in `Q` when nothing fails. -/
abbrev Works {α : Type} (P : Greeter δ → Prop) (m : HelperAct δ α) (Q : α → Greeter δ → Prop) :
    Prop :=
  Triple working working.enabled P m Q fun _ => False

variable {P : Greeter δ → Prop}

theorem works_step {op : Step δ} {Q : op.Reply → Greeter δ → Prop}
    (h : ∀ w, P w → ∃ reply, (answered w () op).1 = .ok reply ∧ Q reply (answered w () op).2) :
    Works P (step op) Q := by
  intro s w hw
  refine ⟨⟨_, _, rfl⟩, fun answer w' hstep => ?_⟩
  obtain ⟨rfl, rfl⟩ := Prod.mk.inj hstep
  obtain ⟨reply, hreply, hQ⟩ := h w hw
  change outcome _ _ (answered w () op).1 () _
  rw [hreply]
  exact hQ

theorem works_read {name : Name δ} {limit : ℕ} (h : ∀ w, P w → size (w.file name) ≤ limit) :
    Works P (config.read name limit) (fun data w => P w ∧ data = w.file name) :=
  works_step fun w hw => ⟨w.file name, if_pos (h w hw), hw, rfl⟩

theorem works_readJournal (kind : Kind) :
    Works P (readJournal kind) (fun pending w => P w ∧ pending = w.journal kind) :=
  works_step fun w hw => ⟨w.journal kind, rfl, hw, rfl⟩

theorem works_refuse {kind : Kind} (h : ∀ w, P w → w.journal kind = none) :
    Works P (refuse kind) (fun _ => P) := by
  refine .bind (works_readJournal kind) fun pending => .ite (fun hsome => ?_) fun _ =>
    Triple.pure fun _ hw => hw.1
  refine .raise fun w hw => ?_
  rw [hw.2, h w hw.1] at hsome
  cases hsome

theorem works_removeJournal (kind : Kind) :
    Works P (removeJournal kind) (fun _ w => w.journal kind = none) :=
  works_step fun _ _ => ⟨(), rfl, setJournal_journal kind none⟩

theorem works_validate {allowed : List (Name δ)} {journal : Journal (Name δ)}
    (h : journal.Valid allowed) : Works P (validate allowed journal) (fun _ => P) :=
  Triple.ite (fun _ => .pure fun _ hw => hw) fun hno => (hno h).elim

section Recovery

variable {journal : Journal (Name δ)}

/-- The files of a journal are its images, of which those not to come are the old ones. -/
def Restoring (journal : Journal (Name δ)) (rest : List (Image (Name δ))) (w : Greeter δ) : Prop :=
  (∀ image ∈ journal.images, w.file image.name = image.old ∨ w.file image.name = image.new) ∧
    ∀ image ∈ journal.images, image ∉ rest → w.file image.name = image.old

/-- The images of a journal are read within the limit. -/
def Small (journal : Journal (Name δ)) : Prop :=
  ∀ image ∈ journal.images, size image.old ≤ maxText ∧ size image.new ≤ maxText

omit [DecidableEq δ] in
theorem Journal.Valid.small {allowed : List (Name δ)} (h : journal.Valid allowed) : Small journal := by
  intro image himage
  have hsizes := (h.1 image himage).2
  have hlimit : maxImageBytes ≤ maxText := by decide
  exact ⟨Nat.le_trans hsizes.1 hlimit, Nat.le_trans hsizes.2 hlimit⟩

omit [DecidableEq δ] in
theorem Restoring.size {rest : List (Image (Name δ))} {w : Greeter δ}
    (h : Restoring journal rest w) (hsmall : Small journal) {image : Image (Name δ)}
    (himage : image ∈ journal.images) : size (w.file image.name) ≤ maxText := by
  rcases h.1 image himage with hold | hnew
  · exact hold ▸ (hsmall image himage).1
  · exact hnew ▸ (hsmall image himage).2

theorem works_checkCurrent (hsmall : Small journal) (undo : Bool)
    {rest : List (Image (Name δ))}
    (hdone : undo = false → ∀ image ∈ journal.images, image ∉ rest) :
    Works (Restoring journal rest) (checkCurrent config undo journal)
      (fun _ => Restoring journal rest) := by
  refine .forEach_const fun image himage => .bind
    (works_read fun w hw => hw.size hsmall himage) fun current => .ite (fun _ => ?_) fun hno => ?_
  · exact .pure fun _ hw => hw.1
  · refine .raise fun w hw => hno ?_
    obtain ⟨hw, rfl⟩ := hw
    cases undo with
    | false => exact .inl (hw.2 image himage (hdone rfl image himage))
    | true =>
      rcases hw.1 image himage with hold | hnew
      · exact .inl hold
      · exact .inr ⟨rfl, hnew⟩

theorem works_restoreImage (hsmall : Small journal) (hnodup : (journal.images.map Image.name).Nodup)
    {image : Image (Name δ)} (himage : image ∈ journal.images) (rest : List (Image (Name δ))) :
    Works (Restoring journal (image :: rest)) (restoreImage config image)
      (fun _ => Restoring journal rest) := by
  refine .bind (works_read fun w hw => hw.size hsmall himage) fun current =>
    Triple.ite (fun hold => .pure fun w hw => ?_) fun _ => works_step fun w hw =>
      ⟨(), rfl, ?_⟩
  · obtain ⟨hw, hcurrent⟩ := hw
    refine ⟨hw.1, fun other hother hnot => ?_⟩
    by_cases hsame : other = image
    · rw [hsame, ← hcurrent, hold]
    · exact hw.2 other hother (by simp [hsame, hnot])
  · change Restoring journal rest (w.setFile image.name image.old)
    have hfile : ∀ other ∈ journal.images, other ≠ image →
        (w.setFile image.name image.old).file other.name = w.file other.name := by
      intro other hother hne
      exact setFile_file_ne _ fun hname =>
        hne (List.inj_on_of_nodup_map hnodup hother himage hname)
    refine ⟨fun other hother => ?_, fun other hother hnot => ?_⟩
    · by_cases hsame : other = image
      · exact .inl (hsame ▸ setFile_file ..)
      · rw [hfile other hother hsame]
        exact hw.1.1 other hother
    · by_cases hsame : other = image
      · exact hsame ▸ setFile_file ..
      · rw [hfile other hother hsame]
        exact hw.1.2 other hother (by simp [hsame, hnot])

/-- A rollback works, and the old images come back. -/
theorem works_rollback (hsmall : Small journal) (hnodup : (journal.images.map Image.name).Nodup) :
    Works (Restoring journal journal.images) (rollback config journal)
      (fun _ => Restoring journal []) := by
  refine .bind (works_checkCurrent hsmall true fun h => by cases h) fun _ => ?_
  have hloop := Triple.forEach (ε := Fault) (E := working) (G := (working (δ := δ)).enabled)
    (σ := Unit) (R := fun _ => False) (l := journal.images.reverse) (f := restoreImage config)
    (fun rest w => Restoring journal rest w ∧ ∀ image ∈ rest, image ∈ journal.images) ?_
  · refine hloop.mono (fun w hw => ⟨⟨hw.1, fun image himage hnot => ?_⟩, fun image himage => ?_⟩)
      (fun _ _ hw => hw.1) fun _ h => h
    · exact (hnot (List.mem_reverse.2 himage)).elim
    · exact List.mem_reverse.1 himage
  · intro image rest
    refine .assume (p := image ∈ journal.images ∧ ∀ other ∈ rest, other ∈ journal.images)
      (fun w hw => ⟨hw.2 image (List.mem_cons_self ..),
        fun other hother => hw.2 other (List.mem_cons_of_mem _ hother)⟩) fun hmem => ?_
    exact (works_restoreImage hsmall hnodup hmem.1 rest).mono (fun _ hw => hw.1)
      (fun _ _ hw => ⟨hw, hmem.2⟩) fun _ h => h

/-- A committed journal whose new images are in place is found complete. -/
theorem works_checkCommitted (hsmall : Small journal) :
    Works (Applied journal) (checkCommitted config journal) (fun _ => Applied journal) := by
  refine .forEach_const fun image himage => .bind
    (works_read fun w hw => (hw image himage) ▸ (hsmall image himage).2) fun current =>
      Triple.ite (fun _ => .pure fun _ hw => hw.1) fun hno => .raise fun w hw => hno ?_
  exact hw.2.trans (hw.1 image himage)

end Recovery

/-- The state of a pending journal that can be rolled back. -/
def Pends (kind : Kind) (journal : Journal (Name δ)) (w : Greeter δ) : Prop :=
  (∀ other, other ≠ kind → w.journal other = none) ∧ w.journal kind = some journal ∧
    Restoring journal journal.images w

theorem works_recoverWallpaper {journal : Journal (Name δ)}
    (hvalid : journal.Valid [.sheet .gtkgreet]) (hnodup : (journal.images.map Image.name).Nodup) :
    Works (Pends .wallpaper journal) recoverWallpaper
      (fun _ w => w.journal .wallpaper = none) := by
  refine .bind (works_readJournal .wallpaper) fun pending => .assume
    (p := pending = some journal) (fun w hw => hw.2.trans hw.1.2.1) fun hpending => ?_
  subst hpending
  refine .bind (works_validate hvalid) fun _ => .bind
    ((works_rollback hvalid.small hnodup).before fun w hw => hw.1.2.2) fun _ => ?_
  exact .bind (works_checkCurrent hvalid.small false fun _ _ _ => by simp) fun _ =>
    works_removeJournal .wallpaper

theorem works_recoverFields {journal : Journal (Name δ)} (hvalid : journal.Valid sheets)
    (hnodup : (journal.images.map Image.name).Nodup) :
    Works (fun w => Pends .fields journal w ∧ (journal.phase = .committed → Applied journal w))
      recoverFields (fun _ w => w.journal .fields = none) := by
  refine .bind (works_refuse fun w hw => hw.1.1 .wallpaper (by decide)) fun _ =>
    Triple.bind (works_refuse fun w hw => hw.1.1 .theme (by decide)) fun _ =>
      Triple.bind (works_readJournal .fields) fun pending => .assume
        (p := pending = some journal) (fun w hw => hw.2.trans hw.1.1.2.1) fun hpending => ?_
  subst hpending
  refine .bind (works_validate hvalid) fun _ => .bind
    (Q := fun _ _ => True) ?_ fun _ => works_removeJournal .fields
  unfold settleFields
  split
  case h_1 hphase =>
    exact (works_rollback hvalid.small hnodup).mono (fun w hw => hw.1.1.2.2) (fun _ _ _ => trivial)
      fun _ h => h
  case h_2 hphase =>
    exact (works_checkCommitted hvalid.small).mono (fun w hw => hw.1.2 hphase)
      (fun _ _ _ => trivial) fun _ h => h

theorem works_rollbackTheme (lib : Library δ) {journal : Journal (Name δ)} {uid : ℕ} (hvalid : journal.Valid sheets)
    (hnodup : (journal.images.map Image.name).Nodup) (howned : journal.caller = some uid) :
    Works (Pends .theme journal) (theme uid journal.token (.rollback : ThemeAction lib))
      (fun _ w => w.journal .theme = none) := by
  refine .bind (works_refuse fun w hw => hw.1 .wallpaper (by decide)) fun _ =>
    Triple.bind (works_refuse fun w hw => hw.1 .fields (by decide)) fun _ =>
      Triple.bind (works_readJournal .theme) fun pending => .assume
        (p := pending = some journal) (fun w hw => hw.2.trans hw.1.2.1) fun hpending => ?_
  subst hpending
  refine .bind (Q := fun _ => Pends .theme journal) (.ite (fun hno => (hno hvalid).elim)
    fun _ => .ite (fun hno => ?_) fun _ => .pure fun _ hw => hw.1) fun _ => ?_
  · simp [howned] at hno
  · exact .bind ((works_rollback hvalid.small hnodup).before fun w hw => hw.2.2) fun _ =>
      works_removeJournal .theme

/-- What works to the end in one part of an operation is a run of the operation. -/
theorem Works.steps {α β : Type} {P : Greeter δ → Prop} {m : HelperAct δ α}
    {Q : Greeter δ → Prop} (h : Works P m fun _ => Q) {w : Greeter δ} (hw : P w)
    (rest : α → HelperAct δ β) :
    ∃ w' p, Program.Steps (greeter torn) w ((m >>= rest) ()) w' p ∧ Q w' := by
  obtain ⟨⟨outcome, _⟩, w', hrun, hpost⟩ := (h () w hw).terminates
  cases outcome with
  | error e => exact hpost.elim
  | ok a => exact ⟨w', _, (hrun.mono greeter_of_working).bind _, hpost⟩

end Working

section Stuck

/-- Steps that change nothing. -/
def Looks (_ : Greeter δ) (_ : Unit) : Step δ → Prop
  | .read _ _ | .readJournal _ => True
  | _ => False

/-- From `w₀`, a part of an operation changes nothing, and returns in `Q` or raises. -/
abbrev Stuck (torn : Bool) (w₀ : Greeter δ) {α : Type} (P : Greeter δ → Prop) (m : HelperAct δ α)
    (Q : α → Greeter δ → Prop) : Prop :=
  Triple (greeter torn) Looks (fun w => w = w₀ ∧ P w) m (fun a w => w = w₀ ∧ Q a w) (· = w₀)

theorem observing_looks : Observing (greeter (δ := δ) torn) Looks where
  does _ _ _ _ _ hstep := hstep.1
  read _ _ _ _ := trivial
  readJournal _ _ _ := trivial

variable {w₀ : Greeter δ} {P : Greeter δ → Prop}

/-- What only looks changes nothing. -/
theorem Stuck.kept {m : HelperAct δ Unit}
    {Q : Unit → Greeter δ → Prop} (h : Stuck torn w₀ P m Q) (hP : P w₀) {w' : Greeter δ}
    {p : Program (Helper δ) Unit (Except Fault Unit × Unit)}
    (hrun : Program.Steps (greeter torn) w₀ (m ()) w' p) : w' = w₀ := by
  refine (h () w₀ ⟨rfl, hP⟩).invariant (I := (· = w₀)) ?_ hrun rfl
  rintro w s op answer w'' hlooks hstep rfl
  cases op with
  | read name limit => exact hstep.1.1
  | readJournal kind => exact hstep.1.1
  | write name data replace => exact hlooks.elim
  | writeJournal kind journal => exact hlooks.elim
  | scan => exact hlooks.elim

/-- A file that is not the new image is found. -/
theorem stuck_checkNew {images : List (Image (Name δ))} {image : Image (Name δ)}
    (himage : image ∈ images) (hfile : w₀.file image.name ≠ image.new) :
    Stuck torn w₀ P (Act.forEach images (checkNew config)) (fun _ _ => False) := by
  induction images generalizing P with
  | nil => cases himage
  | cons other images ih =>
    refine .bind (Q := fun _ w => w = w₀ ∧ other ≠ image) ?_ fun _ => ?_
    · refine .bind (observing_looks.reading _ _ other.name maxText fun _ hw => hw.1)
        fun current => .ite (fun hnew => .pure fun w hw => ⟨hw.1.1, ?_⟩) fun _ =>
          Triple.raise fun _ hw => hw.1.1
      rintro rfl
      obtain ⟨⟨rfl, -⟩, rfl, -⟩ := hw
      exact hfile hnew
    · refine .assume (p := other ≠ image) (fun _ hw => hw.2) fun hne => ?_
      have hrest : image ∈ images := (List.mem_cons.1 himage).resolve_left fun h => hne h.symm
      exact ih hrest

/-- A committed journal of field updates whose files are not its new images stays. -/
theorem stuck_recoverFields {stored : Journal (Name δ)} (hstored : w₀.journal .fields = some stored)
    (hcommitted : stored.phase = .committed) (hfiles : ¬Applied stored w₀) :
    Stuck torn w₀ P recoverFields (fun _ _ => False) := by
  obtain ⟨image, himage, hfile⟩ : ∃ image ∈ stored.images, w₀.file image.name ≠ image.new := by
    simpa [Applied, Renewed] using hfiles
  refine .bind (observing_looks.refuse .wallpaper fun _ hw => hw.1) fun _ =>
    Triple.bind (observing_looks.refuse .theme fun _ hw => hw.1.1) fun _ =>
      Triple.bind (observing_looks.journal .fields fun _ hw => hw.1.1.1) fun pending => ?_
  cases pending with
  | none =>
    refine .assume (p := False) (fun w hw => ?_) fun h => h.elim
    obtain ⟨⟨⟨⟨rfl, -⟩, -⟩, -⟩, hnone, -⟩ := hw
    cases (hnone rfl).symm.trans hstored
  | some journal =>
    refine .assume (p := journal.Same stored) (fun w hw => ?_) fun hsame => ?_
    · obtain ⟨⟨⟨⟨rfl, -⟩, -⟩, -⟩, -, hsome⟩ := hw
      obtain ⟨stored', hstored', hsame⟩ := hsome journal rfl
      obtain rfl : stored' = stored := Option.some.inj (hstored'.symm.trans hstored)
      exact hsame
    have hvalid : Stuck torn w₀ (P := fun _ => True) (validate sheets journal) (fun _ _ => True) :=
      Triple.ite (fun _ => .pure fun _ hw => hw) fun _ => .raise fun _ hw => hw.1
    have hsettle : Stuck torn w₀ (P := fun _ => True) (settleFields journal)
        (fun _ _ => False) := by
      simp only [settleFields, hsame.2.1, hcommitted]
      exact stuck_checkNew (hsame.2.2.2.mem_iff.2 himage) hfile
    exact .bind (hvalid.before fun _ hw => ⟨hw.1.1.1.1, trivial⟩) fun _ =>
      Triple.bind hsettle fun _ => .assume (p := False) (fun _ hw => hw.2) fun h => h.elim

/-- No field update clears such a journal. -/
theorem stuck_fields {stored : Journal (Name δ)} (hstored : w₀.journal .fields = some stored)
    (hcommitted : stored.phase = .committed) (hfiles : ¬Applied stored w₀)
    {operation : Operation lib} (hkind : operation.kind = .fields) {w' : Greeter δ}
    {p : Program (Helper δ) Unit (Except Fault Unit × Unit)}
    (hrun : Program.Steps (greeter torn) w₀ (operation.run ()) w' p) :
    w'.journal .fields = some stored := by
  cases operation with
  | theme uid token action => cases hkind
  | wallpaper data token => cases hkind
  | fields edits token =>
    have hstuck : Stuck torn w₀ (fun _ => True) (applyRootGreeter edits token) (fun _ _ => False) :=
      Triple.bind (stuck_recoverFields hstored hcommitted hfiles) fun _ =>
        Triple.assume (p := False) (fun _ hw => hw.2) fun h => h.elim
    rw [hstuck.kept trivial hrun]
    exact hstored

end Stuck

end Preseed.Appearance
