import Preseed.Appearance.DeskRules

/-!
# Rules of recovery

Every step of a recovery keeps the invariant, and a recovery that returns has ended the change.
-/

namespace Preseed.Appearance

open Effects

variable {δ ν : Type} [DecidableEq δ] [DecidableEq ν] {lib : Library δ}

/-- The account in runs that meet both conditions. -/
def timely (uid : ℕ) : Environment (Engine lib ν) Unit (Desk lib ν) :=
  (desk uid OnTime).restrict Restorable

/-- Every answer to a step keeps the invariant. -/
def Keeping (uid : ℕ) (allowed : List ν) (w : Desk lib ν) (s : Unit) (op : EngineStep lib ν) :
    Prop :=
  Consistent uid allowed [] w → ∀ answer w', timely uid w s op answer w' →
    Consistent uid allowed [] w'

/-- From `P`, a part of the engine returns in `Q`, or raises in `R`. -/
abbrev Course (uid : ℕ) (allowed : List ν) {α : Type} (P : Desk lib ν → Prop)
    (m : EngineAct lib ν α) (Q : α → Desk lib ν → Prop) (R : Desk lib ν → Prop) : Prop :=
  Triple (timely uid) (Keeping uid allowed) P m Q R

variable {uid : ℕ} {allowed : List ν} {tokens : List ℕ} {P R : Desk lib ν → Prop}
  {journal : Change ν}

/-- The rule of a step. -/
theorem course_step {op : EngineStep lib ν} {Q : op.Reply → Desk lib ν → Prop}
    (hok : ∀ w a w', P w → Restorable w () op → op.does uid OnTime w (.ok a) w' → Q a w')
    (herror : ∀ w e w', P w → Restorable w () op → op.does uid OnTime w (.error e) w' → R w')
    (hQ : ∀ a w, Q a w → Consistent uid allowed [] w)
    (hR : ∀ w, R w → Consistent uid allowed [] w) : Course uid allowed P op.perform Q R := by
  intro s w hw
  refine ⟨fun _ answer w' hstep => ?_, fun answer w' hstep => ?_⟩
  · cases answer with
    | ok a => exact hQ a w' (hok w a w' hw hstep.1 hstep.2)
    | error e => exact hR w' (herror w e w' hw hstep.1 hstep.2)
  · cases answer with
    | ok a => exact hok w a w' hw hstep.1 hstep.2
    | error e => exact herror w e w' hw hstep.1 hstep.2

/-- The rule of a step that changes nothing. -/
theorem course_same {op : EngineStep lib ν}
    (hsame : ∀ (w : Desk lib ν) answer w', op.does uid OnTime w answer w' → w' = w)
    (hR : ∀ w, P w → R w) : Course uid allowed P op.perform (fun _ => P) R := by
  intro s w hw
  refine ⟨fun hconsistent answer w' hstep => ?_, fun answer w' hstep => ?_⟩
  · rw [hsame w answer w' hstep.2]
    exact hconsistent
  · obtain rfl := hsame w answer w' hstep.2
    cases answer with
    | ok a => exact hw
    | error e => exact hR w' hw

theorem reading_home :
    Reading (home : Tree (Engine lib ν) ν) (timely uid) (Keeping uid allowed) Desk.file := by
  intro P R name limit hR s w hw
  refine ⟨fun hconsistent answer w' hstep => ?_, fun answer w' hstep => ?_⟩
  · obtain rfl : w' = w := hstep.2.1
    exact hconsistent
  · obtain ⟨rfl, hdata⟩ : w' = w ∧ _ := hstep.2
    cases answer with
    | ok data => exact ⟨hw, hdata data rfl⟩
    | error e => exact hR w' hw

theorem course_readJournal (hR : ∀ w, P w → R w) :
    Course uid allowed P (EngineStep.perform (.readJournal : EngineStep lib ν))
      (fun pending w => P w ∧ (pending = none → w.journal = none) ∧ ∀ journal,
        pending = some journal → ∃ stored, w.journal = some stored ∧ journal.Same stored) R := by
  intro s w hw
  refine ⟨fun hconsistent answer w' hstep => ?_, fun answer w' hstep => ?_⟩
  · obtain rfl : w' = w := hstep.2.1
    exact hconsistent
  · obtain ⟨rfl, hnone, hsome⟩ : w' = w ∧ _ := hstep.2
    cases answer with
    | ok pending =>
      refine ⟨hw, ?_, ?_⟩
      · rintro rfl
        exact hnone rfl
      · rintro journal rfl
        exact hsome journal rfl
    | error e => exact hR w' hw

theorem course_getSettings (hR : ∀ w, P w → R w) :
    Course uid allowed P (EngineStep.perform (.getSettings : EngineStep lib ν))
      (fun (settings : Settings) w => P w ∧ settings = w.settings) R := by
  intro s w hw
  refine ⟨fun hconsistent answer w' hstep => ?_, fun answer w' hstep => ?_⟩
  · obtain rfl : w' = w := hstep.2.1
    exact hconsistent
  · obtain ⟨rfl, hsettings⟩ : w' = w ∧ _ := hstep.2
    cases answer with
    | ok settings => exact ⟨hw, hsettings settings rfl⟩
    | error e => exact hR w' hw

section Written

variable {X : Desk lib ν → Prop}

omit [DecidableEq δ] in
theorem Written.setFile {w : Desk lib ν} (h : Written uid allowed tokens journal w)
    {image : Image ν} (himage : image ∈ journal.images) {data : Option Bytes}
    (hdata : data = image.old ∨ data = image.new) :
    Written uid allowed tokens journal
      { w with file := Function.update w.file image.name data } :=
  { h with
    frame := fun name hname => by
      rw [← h.frame name hname]
      exact Function.update_of_ne (fun hsame => hname image himage hsame.symm) ..
    current := fun other hother => by
      by_cases hsame : other.name = image.name
      · obtain rfl := List.inj_on_of_nodup_map h.nodup hother himage hsame
        simpa using hdata
      · simpa [hsame] using h.current other hother
    undecided := ⟨h.undecided.1, h.undecided.2, h.undecided.3, h.undecided.4⟩ }

theorem writing_home (hX : ∀ (w : Desk lib ν) file, X w → X { w with file := file })
    {image : Image ν} (himage : image ∈ journal.images) {data : Option Bytes}
    (hdata : data = image.old ∨ data = image.new) :
    Writing home (timely uid) (Keeping uid allowed) Desk.file
      (fun w => Written uid allowed tokens journal w ∧ X w) image.name data := by
  intro before
  refine course_step (fun w _ w' hw _ hdoes => ?_) (fun w e w' hw _ hdoes => ?_)
    (fun _ _ hw => hw.1.1.consistent) fun _ hw => hw.1.consistent
  · obtain ⟨⟨hwritten, hx⟩, rfl⟩ := hw
    rcases hdoes with rfl | ⟨⟨e, he⟩, -⟩
    · exact ⟨⟨hwritten.setFile himage hdata, hX w _ hx⟩, rfl⟩
    · cases he
  · obtain ⟨⟨hwritten, hx⟩, rfl⟩ := hw
    rcases hdoes with rfl | ⟨-, rfl⟩
    · exact ⟨hwritten.setFile himage hdata, hX w _ hx⟩
    · exact ⟨hwritten, hx⟩

omit [DecidableEq δ] [DecidableEq ν] in
theorem Written.setSettings {w : Desk lib ν} (h : Written uid allowed tokens journal w)
    (hold : journal.oldSettings ≠ none) (settings : Settings) :
    Written uid allowed tokens journal { w with settings := settings } :=
  { h with
    unchanged := fun hnone => (hold hnone).elim
    undecided := ⟨h.undecided.1, h.undecided.2, h.undecided.3, h.undecided.4⟩ }

section

variable (hX : ∀ (w : Desk lib ν) settings, X w → X { w with settings := settings })
include hX

theorem course_setSetting
    (hold : journal.oldSettings ≠ none) (key : Key) (value : Bytes) :
    Course uid allowed (fun w => Written uid allowed tokens journal w ∧ X w)
      (setSetting key value : EngineAct lib ν Unit)
      (fun _ w => Written uid allowed tokens journal w ∧ X w)
      (fun w => Written uid allowed tokens journal w ∧ X w) := by
  have hkept : ∀ w w' : Desk lib ν, Written uid allowed tokens journal w ∧ X w →
      w' = { w with settings := w.settings.set key value } ∨ w' = w →
        Written uid allowed tokens journal w' ∧ X w' := by
    rintro w w' ⟨hwritten, hx⟩ (rfl | rfl)
    · exact ⟨hwritten.setSettings hold _, hX w _ hx⟩
    · exact ⟨hwritten, hx⟩
  exact .ite (fun _ => course_step (fun w _ w' hw _ hdoes => hkept w w' hw hdoes)
    (fun w _ w' hw _ hdoes => hkept w w' hw hdoes) (fun _ _ hw => hw.1.consistent)
      fun _ hw => hw.1.consistent) fun _ => .raise fun _ hw => hw

/-- Settings that were restored or chosen are there. -/
theorem course_setSettings
    (hold : journal.oldSettings ≠ none) (values : Settings) :
    Course uid allowed (fun w => Written uid allowed tokens journal w ∧ X w)
      (setSettings values : EngineAct lib ν Unit)
      (fun _ w => (Written uid allowed tokens journal w ∧ X w) ∧ w.settings = values)
      (fun w => Written uid allowed tokens journal w ∧ X w) := by
  refine .bind (course_setSetting hX hold _ _) fun _ =>
    Triple.bind (course_setSetting hX hold _ _) fun _ =>
      Triple.bind (course_getSettings fun _ hw => hw) fun observed =>
        Triple.ite (fun hsame => .pure fun w hw => ⟨hw.1, ?_⟩) fun _ =>
          Triple.raise fun _ hw => hw.1
  exact hw.2.symm.trans hsame

end

end Written

section Helpers

omit [DecidableEq ν] in
/-- What late helpers keep holds before a helper that is called. -/
theorem late_of_steps {C : Desk lib ν → Prop}
    (hlate : ∀ w w', LateRun uid OnTime w w' → C w → C w') {w w' : Desk lib ν}
    (h : Relation.ReflTransGen (LateRun uid OnTime) w w') (hw : C w) : C w' := by
  induction h with
  | refl => exact hw
  | tail _ hrun ih => exact hlate _ _ hrun ih

omit [DecidableEq δ] [DecidableEq ν] in
/-- The tokens of other changes stay fresh when a helper is called. -/
theorem Recorded.called {w w' : Desk lib ν} (h : Recorded allowed tokens journal w)
    (hjournal : w'.journal = w.journal)
    (hlate : ∀ request ∈ w'.late, request ∈ w.late ∨ request.token = journal.token)
    (hrolled : ∀ token ∈ w'.rolledBack, token ∈ w.rolledBack ∨ token = journal.token) :
    ∀ token ∈ tokens, Fresh w' token := by
  intro token htoken
  obtain ⟨stored, hstored, -, hsame⟩ := h.stored
  have hfresh := h.fresh token htoken
  have hne : journal.token ≠ token := by
    rw [hsame.1]
    exact hfresh.2.2 stored hstored
  refine ⟨fun hmem => ?_, fun request hrequest => ?_, hjournal ▸ hfresh.2.2⟩
  · rcases hrolled token hmem with hmem | hown
    · exact hfresh.1 hmem
    · exact hne hown.symm
  · rcases hlate request hrequest with hrequest | hown
    · exact hfresh.2.1 request hrequest
    · exact hown ▸ hne

omit [DecidableEq δ] in
theorem mem_late {late : List (Request lib)} {request other : Request lib}
    (h : request ∈ late ++ [other]) : request ∈ late ∨ request = other := by
  simpa using h

/-- The helper undoes its side, or does not. -/
theorem course_rollback :
    Course uid allowed (fun w => Written uid allowed tokens journal w ∧ journal.greeter = true)
      (privileged journal.token .rollback : EngineAct lib ν Unit)
      (fun _ w => Written uid allowed tokens journal w ∧ Still w.base.greeter w)
      (Written uid allowed tokens journal) := by
  refine course_step ?_ ?_ (fun _ _ hw => hw.1.consistent) fun _ hw => hw.consistent
  · rintro w - w' ⟨hw, hgreeter⟩ - ⟨w₁, hlate, g, hrun, rfl⟩
    have h := late_of_steps (fun _ _ hrun h => h.late hrun) hlate hw
    have hundoable := h.undecided.undoable hgreeter
    obtain ⟨-, hback⟩ := undo_rollbackTheme.runs hundoable hundoable hrun
    have hrolled : ∀ request ∈ w₁.late, request.action.IsApply →
        request.token ∈ journal.token :: w₁.rolledBack := by
      intro request hrequest happly
      rcases h.undecided.apply hgreeter request hrequest happly with hrolled | hown
      · exact List.mem_cons_of_mem _ hrolled
      · exact hown ▸ List.mem_cons_self ..
    refine ⟨h.of_same ⟨rfl, rfl, rfl, rfl, rfl⟩ (h.toRecorded.called rfl (fun _ hr => .inl hr)
      fun token htoken => (List.mem_cons.1 htoken).symm) ?_, hback rfl, hrolled⟩
    exact ⟨fun _ => .inl (hback rfl), fun _ request hrequest happly =>
      .inl (hrolled request hrequest happly), h.undecided.commit,
        fun hno => by cases hgreeter.symm.trans hno⟩
  · rintro w e w' ⟨hw, hgreeter⟩ - ⟨w₁, hlate, hends⟩
    have h := late_of_steps (fun _ _ hrun h => h.late hrun) hlate hw
    have hundoable := h.undecided.undoable hgreeter
    rcases hends with ⟨g, p, hrun, rfl⟩ | rfl
    · refine h.of_same ⟨rfl, rfl, rfl, rfl, rfl⟩ (h.toRecorded.called rfl (fun _ hr => .inl hr)
        fun _ ht => .inl ht) ?_
      exact ⟨fun _ => (undo_rollbackTheme.runs hundoable hundoable hrun).1, h.undecided.apply,
        h.undecided.commit, fun hno => by cases hgreeter.symm.trans hno⟩
    · refine h.of_same ⟨rfl, rfl, rfl, rfl, rfl⟩ (h.toRecorded.called rfl (fun request hr => ?_)
        fun _ ht => .inl ht) ⟨fun _ => hundoable, fun _ request hr happly => ?_,
          fun _ request hr hcommit => ?_, fun hno => by cases hgreeter.symm.trans hno⟩
      · exact (mem_late hr).imp_right (congrArg Request.token)
      · rcases mem_late hr with hr | rfl
        · exact h.undecided.apply hgreeter request hr happly
        · exact .inr rfl
      · rcases mem_late hr with hr | rfl
        · exact h.undecided.commit hgreeter request hr hcommit
        · cases hcommit

/-- The helper finishes its side, or does not. -/
theorem course_commit :
    Course uid allowed (fun w => Committed uid allowed tokens journal w ∧ journal.greeter = true)
      (privileged journal.token .commit : EngineAct lib ν Unit)
      (fun _ w => Committed uid allowed tokens journal w ∧ Still w.greeter.file w)
      (Committed uid allowed tokens journal) := by
  refine course_step ?_ ?_ (fun _ _ hw => hw.1.consistent) fun _ hw => hw.consistent
  · rintro w - w' ⟨hw, hgreeter⟩ - ⟨w₁, hlate, g, hrun, rfl⟩
    have h := late_of_steps (fun _ _ hrun h => h.late hrun) hlate hw
    obtain ⟨hcommitting, hfinished⟩ := commit_runs (h.decided.committing hgreeter) hrun
    have huntouched := hfinished rfl
    have hfile : g.file = w₁.greeter.file := huntouched.1
    have happly := h.decided.apply hgreeter
    refine ⟨h.of_same ⟨rfl, rfl, rfl, rfl, rfl⟩ (h.toRecorded.called rfl (fun _ hr => .inl hr)
      fun _ ht => .inl ht) ⟨fun _ => ?_, fun _ => ?_, fun _ => happly, h.decided.rollback,
        fun hno => by cases hgreeter.symm.trans hno⟩, ⟨rfl, huntouched.2⟩, happly⟩
    · obtain ⟨edits, hasked, hedited⟩ := h.decided.edited hgreeter
      exact ⟨edits, hasked, hfile.symm ▸ hedited⟩
    · exact hfile.symm ▸ hcommitting
  · rintro w e w' ⟨hw, hgreeter⟩ - ⟨w₁, hlate, hends⟩
    have h := late_of_steps (fun _ _ hrun h => h.late hrun) hlate hw
    rcases hends with ⟨g, p, hrun, rfl⟩ | rfl
    · have hcommitting := (commit_runs (h.decided.committing hgreeter) hrun).1
      have hfile : g.file = w₁.greeter.file := hcommitting.1
      refine h.of_same ⟨rfl, rfl, rfl, rfl, rfl⟩ (h.toRecorded.called rfl (fun _ hr => .inl hr)
        fun _ ht => .inl ht) ⟨fun _ => ?_, fun _ => hfile.symm ▸ hcommitting, h.decided.apply,
          h.decided.rollback, fun hno => by cases hgreeter.symm.trans hno⟩
      obtain ⟨edits, hasked, hedited⟩ := h.decided.edited hgreeter
      exact ⟨edits, hasked, hfile.symm ▸ hedited⟩
    · refine h.of_same ⟨rfl, rfl, rfl, rfl, rfl⟩ (h.toRecorded.called rfl (fun request hr => ?_)
        fun _ ht => .inl ht) ⟨h.decided.edited, h.decided.committing, fun _ request hr happly => ?_,
          fun _ request hr hrollback => ?_, fun hno => by cases hgreeter.symm.trans hno⟩
      · exact (mem_late hr).imp_right (congrArg Request.token)
      · rcases mem_late hr with hr | rfl
        · exact h.decided.apply hgreeter request hr happly
        · exact happly.elim
      · rcases mem_late hr with hr | rfl
        · exact h.decided.rollback hgreeter request hr hrollback
        · cases hrollback

/-- The helper applies the new texts, or leaves what can be undone. -/
theorem course_apply {X : Desk lib ν → Prop} (hX : ∀ w w', SameFiles w w' → X w → X w')
    (edits : Edits lib) :
    Course uid allowed (fun w => ((Written uid allowed tokens journal w ∧ X w) ∧
        Unasked journal w) ∧ journal.greeter = true)
      (privileged journal.token (.apply edits) : EngineAct lib ν Unit)
      (fun _ w => (Written uid allowed tokens journal w ∧ X w) ∧ Decided uid journal w)
      (Written uid allowed tokens journal) := by
  refine course_step ?_ ?_ (fun _ _ hw => hw.1.1.consistent) fun _ hw => hw.consistent
  · rintro w - w' ⟨⟨⟨hw, hx⟩, hunasked⟩, hgreeter⟩ - ⟨w₁, hlate, g, hrun, rfl⟩
    obtain ⟨h, hx, ⟨huntouched, happly⟩, hnot, hnone⟩ := late_of_steps
      (C := fun w => Written uid allowed tokens journal w ∧ X w ∧ Unasked journal w)
      (fun _ _ hrun h => ⟨h.1.late hrun, hX _ _ hrun.sameAccount.toSameFiles h.2.1,
        h.2.2.late hrun⟩) hlate ⟨hw, hx, hunasked⟩
    obtain ⟨hundoable, happlied⟩ := (undo_apply edits).runs huntouched (.inl huntouched) hrun
    obtain ⟨hedited, stored, hchanging, hrenewed⟩ := happlied rfl
    refine ⟨⟨h.of_same ⟨rfl, rfl, rfl, rfl, rfl⟩ (h.toRecorded.called rfl (fun _ hr => .inl hr)
      fun _ ht => .inl ht) ⟨fun _ => hundoable, h.undecided.apply, h.undecided.commit,
        fun hno => by cases hgreeter.symm.trans hno⟩, hX w₁ _ ⟨rfl, rfl, rfl, rfl, rfl⟩ hx⟩,
      fun _ => ⟨edits, rfl, hedited⟩, fun _ => ?_, fun _ => happly,
        fun _ request hr _ => hnone request hr, fun hno => by cases hgreeter.symm.trans hno⟩
    refine ⟨rfl, hchanging.others, fun pending hpending => ?_⟩
    obtain rfl : stored = pending := Option.some.inj (hchanging.stored.symm.trans hpending)
    exact ⟨hchanging.caller, hchanging.token, hchanging.valid, hchanging.present, hrenewed⟩
  · rintro w e w' ⟨⟨⟨hw, -⟩, hunasked⟩, hgreeter⟩ - ⟨w₁, hlate, hends⟩
    obtain ⟨h, ⟨huntouched, happly⟩, hnot, hnone⟩ := late_of_steps
      (C := fun w => Written uid allowed tokens journal w ∧ Unasked journal w)
      (fun _ _ hrun h => ⟨h.1.late hrun, h.2.late hrun⟩) hlate ⟨hw, hunasked⟩
    rcases hends with ⟨g, p, hrun, rfl⟩ | rfl
    · refine h.of_same ⟨rfl, rfl, rfl, rfl, rfl⟩ (h.toRecorded.called rfl (fun _ hr => .inl hr)
        fun _ ht => .inl ht) ?_
      exact ⟨fun _ => ((undo_apply edits).runs huntouched (.inl huntouched) hrun).1,
        h.undecided.apply, h.undecided.commit, fun hno => by cases hgreeter.symm.trans hno⟩
    · refine h.of_same ⟨rfl, rfl, rfl, rfl, rfl⟩ (h.toRecorded.called rfl (fun request hr => ?_)
        fun _ ht => .inl ht) ⟨fun _ => .inl huntouched, fun _ request hr hkind => ?_,
          fun _ request hr hcommit => ?_, fun hno => by cases hgreeter.symm.trans hno⟩
      · exact (mem_late hr).imp_right (congrArg Request.token)
      · rcases mem_late hr with hr | rfl
        · exact .inl (happly request hr hkind)
        · exact .inr rfl
      · rcases mem_late hr with hr | rfl
        · exact hnone request hr
        · cases hcommit

end Helpers

end Preseed.Appearance
