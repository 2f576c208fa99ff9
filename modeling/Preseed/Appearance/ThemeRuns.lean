import Preseed.Appearance.GreeterRuns

/-!
# One theme of the greeter

What `apply`, `rollback` and `commit` of one account and token make of a greeter that no other
operation touches, wherever they are stopped.
-/

namespace Preseed.Appearance

open Effects Triple

variable {δ : Type} [DecidableEq δ] {lib : Library δ}

/-- The files are these, and nothing is pending. -/
def Untouched (file : Name δ → Option Bytes) (g : Greeter δ) : Prop :=
  g.file = file ∧ ∀ kind, g.journal kind = none

/-- A theme of this account and token is pending over the files `file`. -/
structure Changing (file : Name δ → Option Bytes) (uid token : ℕ) (journal : Journal (Name δ))
    (g : Greeter δ) : Prop where
  stored : g.journal .theme = some journal
  others : ∀ kind, kind ≠ .theme → g.journal kind = none
  caller : journal.caller = some uid
  token : journal.token = token
  valid : journal.Valid sheets
  nodup : (journal.images.map Image.name).Nodup
  present : ∀ image ∈ journal.images, image.new ≠ none
  old : Restored file journal
  current : ∀ image ∈ journal.images, g.file image.name = image.old ∨ g.file image.name = image.new
  frame : ∀ name, (∀ image ∈ journal.images, image.name ≠ name) → g.file name = file name

/-- The theme is pending or was never begun. -/
def Undoable (file : Name δ → Option Bytes) (uid token : ℕ) (g : Greeter δ) : Prop :=
  Untouched file g ∨ ∃ journal, Changing file uid token journal g

section Edited

/-- The stylesheets of `edits` are rewritten, the other files are as they were. -/
def Edited (edits : Edits lib) (before after : Name δ → Option Bytes) : Prop :=
  (∀ edit ∈ edits.edits, ∃ raw text, before (.sheet edit.1) = some raw ∧ edit.2 raw = .ok text ∧
    after (.sheet edit.1) = some text) ∧
  ∀ name, (∀ edit ∈ edits.edits, name ≠ .sheet edit.1) → after name = before name

/-- An update is the new text of an edited stylesheet. -/
def RewritesOne (file : Name δ → Option Bytes) (edit : Sheet × (Bytes → Except Fault Bytes))
    (update : Name δ × Option Bytes) : Prop :=
  update.1 = .sheet edit.1 ∧ ∃ raw text, file (.sheet edit.1) = some raw ∧
    edit.2 raw = .ok text ∧ update.2 = some text

/-- The updates are the new texts. -/
def Rewrites (file : Name δ → Option Bytes) (edits : Edits lib)
    (updates : List (Name δ × Option Bytes)) : Prop :=
  List.Forall₂ (RewritesOne file) edits.edits updates

variable {file after : Name δ → Option Bytes} {edits : Edits lib}
  {updates : List (Name δ × Option Bytes)}

omit [DecidableEq δ] in
section

variable (h : Rewrites file edits updates)
include h

theorem Rewrites.names :
    updates.map Prod.fst = edits.edits.map (fun edit => .sheet edit.1) := by
  unfold Rewrites at h
  generalize edits.edits = list at h
  induction h with
  | nil => rfl
  | cons hone _ ih => simp [hone.1, ih]

omit [DecidableEq δ] in
theorem Rewrites.present : ∀ update ∈ updates, update.2 ≠ none := by
  unfold Rewrites at h
  generalize edits.edits = list at h
  induction h with
  | nil => simp
  | cons hone _ ih =>
    obtain ⟨-, raw, text, -, -, htext⟩ := hone
    intro update hupdate
    rcases List.mem_cons.1 hupdate with rfl | hupdate
    · simp [htext]
    · exact ih update hupdate

omit [DecidableEq δ] in
theorem Rewrites.exists_update :
    ∀ edit ∈ edits.edits, ∃ update ∈ updates, RewritesOne file edit update := by
  unfold Rewrites at h
  generalize edits.edits = list at h
  induction h with
  | nil => simp
  | @cons edit update _ _ hone _ ih =>
    intro other hother
    rcases List.mem_cons.1 hother with rfl | hother
    · exact ⟨update, List.mem_cons_self .., hone⟩
    · obtain ⟨update', hupdate', hone'⟩ := ih other hother
      exact ⟨update', List.mem_cons_of_mem _ hupdate', hone'⟩

omit [DecidableEq δ] in
/-- Once the planned images are in place, the stylesheets are rewritten. -/
theorem Rewrites.edited {images : List (Image (Name δ))}
    (hplanned : Planned updates images file)
    (hcovers : ∀ update ∈ updates, file update.1 = update.2 ∨
      ∃ image ∈ images, image.name = update.1)
    (hrenewed : ∀ image ∈ images, after image.name = image.new)
    (hframe : ∀ name, (∀ image ∈ images, image.name ≠ name) → after name = file name) :
    Edited edits file after := by
  have hnodup : (updates.map Prod.fst).Nodup := h.names ▸ edits.sheets_nodup
  have hafter : ∀ update ∈ updates, after update.1 = update.2 := by
    intro update hupdate
    by_cases himage : ∃ image ∈ images, image.name = update.1
    · obtain ⟨image, himage, hname⟩ := himage
      have hsame : (image.name, image.new) = update :=
        List.inj_on_of_nodup_map hnodup (hplanned.each image himage).2.1 hupdate hname
      rw [← hname, hrenewed image himage, ← hsame]
    · rw [hframe update.1 fun image hmem hname => himage ⟨image, hmem, hname⟩]
      exact (hcovers update hupdate).resolve_right himage
  refine ⟨fun edit hedit => ?_, fun name hname => hframe name fun image himage hsame => ?_⟩
  · obtain ⟨update, hupdate, hupdated, raw, text, hraw, htext, hnew⟩ := h.exists_update edit hedit
    exact ⟨raw, text, hraw, htext, by rw [← hupdated, hafter update hupdate, hnew]⟩
  · have hmem : image.name ∈ edits.edits.map (fun edit => (.sheet edit.1 : Name δ)) :=
      h.names ▸ List.mem_map_of_mem (hplanned.each image himage).2.1
    obtain ⟨edit, hedit, hsheet⟩ := List.mem_map.1 hmem
    exact hname edit hedit (hsame ▸ hsheet.symm)

end

end Edited

section Undo

variable {file : Name δ → Option Bytes} {uid token : ℕ}

/-- When `apply` and `rollback` may take a step. -/
def UndoStep (file : Name δ → Option Bytes) (uid token : ℕ) (g : Greeter δ) (_ : Unit) :
    Step δ → Prop
  | .write name data _ => ∃ journal, g.journal .theme = some journal ∧
      ∃ image ∈ journal.images, image.name = name ∧ (data = image.old ∨ data = image.new)
  | .writeJournal .theme (some journal) => Untouched file g ∧
      Changing file uid token journal (g.setJournal .theme (some journal))
  | .writeJournal .theme none => g.file = file
  | .writeJournal _ _ => False
  | _ => True

/-- The theme stays undoable. -/
theorem undoable_step (g : Greeter δ) (s : Unit) (op : Step δ) (answer : (Helper δ).Res op)
    (g' : Greeter δ) (hpermitted : UndoStep file uid token g s op)
    (hstep : greeter true g s op answer g') (h : Undoable file uid token g) :
    Undoable file uid token g' := by
  have hdoes := hstep.1
  cases op with
  | read name limit =>
    obtain rfl : g' = g := hdoes.1
    exact h
  | scan =>
    obtain rfl : g' = g := hdoes
    exact h
  | readJournal kind =>
    obtain rfl : g' = g := hdoes.1
    exact h
  | writeJournal kind journal =>
    rcases hdoes with rfl | ⟨-, rfl⟩
    · cases kind with
      | fields | wallpaper => exact hpermitted.elim
      | theme =>
        cases journal with
        | some journal => exact .inr ⟨journal, hpermitted.2⟩
        | none =>
          refine .inl ⟨hpermitted, fun kind => ?_⟩
          by_cases hkind : kind = .theme
          · rw [hkind]
            exact setJournal_journal .theme none
          · rw [setJournal_journal_ne none hkind]
            rcases h with h | ⟨journal, h⟩
            · exact h.2 kind
            · exact h.others kind hkind
    · exact h
  | write name data replace =>
    rcases hdoes.1 with rfl | ⟨-, rfl⟩
    · obtain ⟨journal, hjournal, image, himage, rfl, hdata⟩ := hpermitted
      rcases h with h | ⟨journal', h⟩
      · cases (h.2 .theme).symm.trans hjournal
      · obtain rfl : journal' = journal := Option.some.inj (h.stored.symm.trans hjournal)
        refine .inr ⟨journal', { h with current := fun other hother => ?_, frame := fun name hname => ?_ }⟩
        · by_cases hsame : other.name = image.name
          · obtain rfl := List.inj_on_of_nodup_map h.nodup hother himage hsame
            rw [setFile_file]
            exact hdata
          · rw [setFile_file_ne data hsame]
            exact h.current other hother
        · rw [setFile_file_ne data fun hsame => hname image himage hsame.symm]
          exact h.frame name hname
    · exact h

/-- The greeter, with a theme that stays undoable. -/
def undoing (file : Name δ → Option Bytes) (uid token : ℕ) :
    Environment (Helper δ) Unit (Greeter δ) :=
  fun g s op answer g' => greeter true g s op answer g' ∧ Undoable file uid token g'

/-- From `P`, a part of `apply` or `rollback` returns in `Q`. -/
abbrev Undo (file : Name δ → Option Bytes) (uid token : ℕ) {α : Type} (P : Greeter δ → Prop)
    (m : HelperAct δ α) (Q : α → Greeter δ → Prop) : Prop :=
  Triple (undoing file uid token) (UndoStep file uid token) P m Q fun _ => True

variable {P : Greeter δ → Prop}

theorem observing_undo : Observing (undoing (δ := δ) file uid token) (UndoStep file uid token) where
  does _ _ _ _ _ hstep := hstep.1.1
  read _ _ _ _ := trivial
  readJournal _ _ _ := trivial

/-- A pending theme that was read. -/
def Held (file : Name δ → Option Bytes) (uid token : ℕ) (journal : Journal (Name δ))
    (g : Greeter δ) : Prop :=
  ∃ stored, Changing file uid token stored g ∧ journal.images.Perm stored.images

variable {g : Greeter δ} {journal : Journal (Name δ)}

omit [DecidableEq δ] in
theorem Held.nodup (h : Held file uid token journal g) : (journal.images.map Image.name).Nodup := by
  obtain ⟨stored, hchanging, hperm⟩ := h
  exact (hperm.map _).nodup_iff.2 hchanging.nodup

theorem writing_undo {image : Image (Name δ)} (himage : image ∈ journal.images)
    {data : Option Bytes} (hdata : data = image.old ∨ data = image.new) :
    Writing config (undoing file uid token) (UndoStep file uid token) Greeter.file
      (Held file uid token journal) image.name data := by
  rintro before s w ⟨⟨stored, hchanging, hperm⟩, rfl⟩
  refine ⟨⟨stored, hchanging.stored, image, hperm.mem_iff.1 himage, rfl, hdata⟩,
    fun answer w' hstep => ?_⟩
  obtain ⟨⟨⟨hwrites, -⟩, -⟩, hundoable⟩ := hstep
  rcases hwrites with rfl | ⟨⟨e, rfl⟩, rfl⟩
  · have hheld : Held file uid token journal (w.setFile image.name data) := by
      rcases hundoable with h | ⟨stored', h⟩
      · cases (h.2 .theme).symm.trans hchanging.stored
      · obtain rfl : stored' = stored := Option.some.inj (h.stored.symm.trans hchanging.stored)
        exact ⟨stored', h, hperm⟩
    cases answer with
    | ok _ => exact ⟨hheld, rfl⟩
    | error e => exact hheld
  · exact ⟨stored, hchanging, hperm⟩

omit [DecidableEq δ] in
/-- Where the old images are back, all files are. -/
theorem Held.restored (h : Held file uid token journal g)
    (hrestored : Restored g.file journal) : g.file = file := by
  obtain ⟨stored, hchanging, hperm⟩ := h
  funext name
  by_cases hname : ∃ image ∈ stored.images, image.name = name
  · obtain ⟨image, himage, rfl⟩ := hname
    rw [hrestored image (hperm.mem_iff.2 himage), hchanging.old image himage]
  · exact hchanging.frame name fun image himage hsame => hname ⟨image, himage, hsame⟩

theorem undo_rollback (journal : Journal (Name δ)) :
    Undo file uid token (Held file uid token journal) (rollback config journal)
      (fun _ g => Held file uid token journal g ∧ g.file = file) :=
  assume (fun _ hw => hw.nodup) fun hnodup =>
    (triple_rollback observing_undo.reading hnodup fun _ himage => writing_undo himage (.inl rfl)).mono
      (fun _ h => h) (fun _ _ hw => ⟨hw.1, hw.1.restored hw.2⟩) fun _ _ => trivial

theorem undo_removeJournal (hP : ∀ g, P g → (∀ kind, kind ≠ .theme → g.journal kind = none) ∧
    g.file = file) :
    Undo file uid token P (removeJournal .theme) (fun _ => Untouched file) := by
  intro s w hw
  refine ⟨(hP w hw).2, fun answer w' hstep => ?_⟩
  rcases hstep.1.1 with rfl | ⟨⟨e, rfl⟩, rfl⟩
  · cases answer with
    | ok _ =>
      refine ⟨(hP w hw).2, fun kind => ?_⟩
      by_cases hkind : kind = .theme
      · rw [hkind]
        exact setJournal_journal .theme none
      · exact (setJournal_journal_ne none hkind).trans ((hP w hw).1 kind hkind)
    | error e => exact trivial
  · exact trivial

omit [DecidableEq δ] in
theorem Held.others (h : Held file uid token journal g) (kind : Kind) (hkind : kind ≠ .theme) :
    g.journal kind = none := by
  obtain ⟨stored, hchanging, -⟩ := h
  exact hchanging.others kind hkind

/-- A rollback that returns leaves the greeter untouched. -/
theorem undo_rollbackTheme :
    Undo file uid token (Undoable file uid token)
      (theme uid token (.rollback : ThemeAction lib)) (fun _ => Untouched file) := by
  refine .bind (observing_undo.refuse .wallpaper fun _ _ => trivial) fun _ =>
    bind (observing_undo.refuse .fields fun _ _ => trivial) fun _ =>
      bind (observing_undo.journal .theme fun _ _ => trivial) fun pending =>
        bind (Observing.checkCaller uid token pending fun _ _ => trivial) fun _ => ?_
  cases pending with
  | none =>
    refine .pure fun g hg => ?_
    rcases hg.1 with h | ⟨journal, h⟩
    · exact h
    · cases (hg.2.1 rfl).symm.trans h.stored
  | some journal =>
    refine .bind ((undo_rollback journal).before fun g hg => ?_) fun _ =>
      undo_removeJournal fun g hg => ⟨hg.1.others, hg.2⟩
    obtain ⟨stored, hstored, hsame⟩ := hg.2.2 journal rfl
    rcases hg.1 with h | ⟨stored', h⟩
    · cases (h.2 .theme).symm.trans hstored
    · obtain rfl : stored' = stored := Option.some.inj (h.stored.symm.trans hstored)
      exact ⟨stored', h, hsame.2.2.2⟩

/-- The rule of the new texts. -/
theorem undo_candidates (edits : Edits lib) (hP : ∀ g, P g → g.file = file) :
    Undo file uid token P (candidates edits) (fun updates g => P g ∧ Rewrites file edits updates) := by
  have hloop := fold (ε := Fault) (E := undoing file uid token)
    (G := UndoStep file uid token) (σ := Unit) (R := fun _ => True) (l := edits.edits)
    (f := candidate) (b := [])
    (fun rest updates g => P g ∧ ∃ before, before ++ rest = edits.edits ∧
      List.Forall₂ (RewritesOne file) before updates) ?_
  · refine hloop.mono (fun g hg => ⟨hg, [], rfl, .nil⟩) (fun updates g hg => ⟨hg.1, ?_⟩) fun _ h => h
    obtain ⟨before, hbefore, hrewrites⟩ := hg.2
    rw [List.append_nil] at hbefore
    rw [hbefore] at hrewrites
    exact hrewrites
  intro edit rest updates
  refine .bind (observing_undo.file (.sheet edit.1) maxText fun _ _ => trivial) fun raw =>
    bind (.lift (Q := fun text g => ((P g ∧ ∃ before, before ++ edit :: rest = edits.edits ∧
      List.Forall₂ (RewritesOne file) before updates) ∧ g.file (.sheet edit.1) = some raw) ∧
        edit.2 raw = .ok text) (fun _ _ htext hg => ⟨hg, htext⟩) fun _ _ => trivial) fun text =>
      pure fun g hg => ?_
  obtain ⟨⟨⟨hg, before, hbefore, hrewrites⟩, hraw⟩, htext⟩ := hg
  rw [hP g hg] at hraw
  refine ⟨hg, before ++ [edit], by simpa using hbefore, ?_⟩
  exact List.rel_append hrewrites (.cons ⟨rfl, raw, text, hraw, htext, rfl⟩ .nil)

omit [DecidableEq δ] in
/-- A planned theme may become pending. -/
theorem Planned.changing {edits : Edits lib} {updates : List (Name δ × Option Bytes)}
    {planned : Journal (Name δ)} (h : Planned updates planned.images g.file) (hg : Untouched file g)
    (htoken : planned.token = token)
    (hsub : (planned.images.map Image.name).Sublist (updates.map Prod.fst))
    (hrewrites : Rewrites file edits updates) :
    Changing file uid token { planned with caller := some uid }
      (g.setJournal .theme (some { planned with caller := some uid })) where
  stored := setJournal_journal ..
  others kind hkind := (setJournal_journal_ne _ hkind).trans (hg.2 kind)
  caller := rfl
  token := htoken
  valid := by
    refine ⟨fun image himage => ⟨?_, (h.each image himage).2.2⟩, h.total⟩
    have hmem : image.name ∈ edits.edits.map (fun edit => (.sheet edit.1 : Name δ)) :=
      hrewrites.names ▸ List.mem_map_of_mem (h.each image himage).2.1
    obtain ⟨edit, -, hedit⟩ := List.mem_map.1 hmem
    rw [← hedit]
    exact mem_sheets edit.1
  nodup := hsub.nodup (hrewrites.names ▸ edits.sheets_nodup)
  present image himage := hrewrites.present _ (h.each image himage).2.1
  old image himage := hg.1 ▸ (h.each image himage).1
  current image himage := .inl (h.each image himage).1
  frame name _ := congrFun hg.1 name

theorem undo_putJournal (hP : ∀ g, P g → Untouched file g ∧
    Changing file uid token journal (g.setJournal .theme (some journal))) :
    Undo file uid token P (putJournal .theme journal) (fun _ => Held file uid token journal) := by
  intro s w hw
  refine ⟨hP w hw, fun answer w' hstep => ?_⟩
  rcases hstep.1.1 with rfl | ⟨⟨e, rfl⟩, rfl⟩
  · cases answer with
    | ok _ => exact ⟨journal, (hP w hw).2, .refl _⟩
    | error e => exact trivial
  · exact trivial

/-- What is known where an application has returned. -/
def Rewritten (file : Name δ → Option Bytes) (uid token : ℕ) (edits : Edits lib) (g : Greeter δ) :
    Prop :=
  Edited edits file g.file ∧ ∃ journal, Changing file uid token journal g ∧ Renewed g.file journal

/-- An application that returns has rewritten the stylesheets. -/
theorem undo_applyTheme (edits : Edits lib) :
    Undo file uid token (Untouched file) (applyTheme uid token edits)
      (fun _ => Rewritten file uid token edits) := by
  refine .bind (undo_candidates edits fun _ hg => hg.1) fun updates =>
    bind (((triple_plan observing_undo.reading updates token fun _ h => h).and
      (triple_plan_covers observing_undo.reading updates token fun _ h => h)).mono
        (fun _ hg => ⟨hg, hg⟩) (fun _ _ hg => hg) fun _ _ => trivial) fun planned => ?_
  refine .assume (p := Rewrites file edits updates ∧ Planned updates planned.images file ∧
    ∀ update ∈ updates, file update.1 = update.2 ∨ ∃ image ∈ planned.images, image.name = update.1)
    (fun g hg => ?_) fun hknown => ?_
  · obtain ⟨⟨⟨huntouched, hrewrites⟩, -, -, hplanned, -⟩, -, hcovers⟩ := hg
    exact ⟨hrewrites, huntouched.1 ▸ hplanned, huntouched.1 ▸ hcovers⟩
  obtain ⟨hrewrites, hplanned, hcovers⟩ := hknown
  have hput : Undo file uid token _ (putJournal .theme { planned with caller := some uid })
      (fun _ => Held file uid token { planned with caller := some uid }) :=
    undo_putJournal fun g hg => hg
  refine .bind (hput.before fun g hg => ?_) fun _ => ?_
  · obtain ⟨⟨⟨huntouched, -⟩, -, htoken, hplanned, hsub⟩, -⟩ := hg
    exact ⟨huntouched, hplanned.changing huntouched htoken hsub hrewrites⟩
  have happly : Triple (undoing file uid token) (UndoStep file uid token)
      (Held file uid token { planned with caller := some uid })
      (apply config { planned with caller := some uid })
      (fun _ => Rewritten file uid token edits)
      (Held file uid token { planned with caller := some uid }) := by
    refine .assume (fun _ hg => hg.nodup) fun hnodup =>
      (triple_apply observing_undo.reading hnodup fun _ himage => writing_undo himage (.inr rfl)).mono
        (fun _ h => h) (fun _ g hg => ?_) fun _ h => h
    obtain ⟨⟨stored, hchanging, hperm⟩, hrenewed⟩ := hg
    refine ⟨hrewrites.edited hplanned hcovers hrenewed fun name hname => ?_, stored, hchanging,
      fun image himage => hrenewed image (hperm.mem_iff.2 himage)⟩
    exact hchanging.frame name fun image himage => hname image (hperm.mem_iff.2 himage)
  refine .handle happly fun e => .bind (undo_rollback _) fun _ =>
    bind (undo_removeJournal fun g hg => ⟨hg.1.others, hg.2⟩) fun _ =>
      raise fun _ _ => trivial

theorem undo_apply (edits : Edits lib) :
    Undo file uid token (Untouched file) (theme uid token (.apply edits))
      (fun _ => Rewritten file uid token edits) := by
  refine .bind (observing_undo.refuse .wallpaper fun _ _ => trivial) fun _ =>
    bind (observing_undo.refuse .fields fun _ _ => trivial) fun _ =>
      bind (observing_undo.journal .theme fun _ _ => trivial) fun pending =>
        bind (Observing.checkCaller uid token pending fun _ _ => trivial) fun _ => ?_
  cases pending with
  | none => exact (undo_applyTheme edits).before fun g hg => hg.1.1.1
  | some journal =>
    refine .assume (p := False) (fun g hg => ?_) fun h => h.elim
    obtain ⟨stored, hstored, -⟩ := hg.2.2 journal rfl
    cases (hg.1.1.1.2 .theme).symm.trans hstored

/-- Where the theme is pending already, an application only looks. -/
theorem undo_applyAgain (edits : Edits lib) :
    Undo file uid token (Undoable file uid token) (theme uid token (.apply edits))
      (fun _ _ => True) := by
  refine .bind (observing_undo.refuse .wallpaper fun _ _ => trivial) fun _ =>
    bind (observing_undo.refuse .fields fun _ _ => trivial) fun _ =>
      bind (observing_undo.journal .theme fun _ _ => trivial) fun pending =>
        bind (Observing.checkCaller uid token pending fun _ _ => trivial) fun _ => ?_
  cases pending with
  | none =>
    refine (undo_applyTheme edits).mono (fun g hg => ?_) (fun _ _ _ => trivial) fun _ h => h
    rcases hg.1.1.1 with h | ⟨journal, h⟩
    · exact h
    · cases (hg.2.1 rfl).symm.trans h.stored
  | some journal =>
    exact (observing_undo.requireNew journal.images fun _ _ => trivial).mono (fun _ h => h)
      (fun _ _ _ => trivial) fun _ h => h

/-- Wherever an undoing part is stopped, the theme is undoable; where it returns, `Q` holds. -/
theorem Undo.runs {m : HelperAct δ Unit} {Q : Greeter δ → Prop}
    (h : Undo file uid token P m fun _ => Q) {g' : Greeter δ} (hg : P g)
    (hundoable : Undoable file uid token g) {p : Program (Helper δ) Unit (Except Fault Unit × Unit)}
    (hrun : Program.Steps (greeter true) g (m ()) g' p) :
    Undoable file uid token g' ∧ (p.result? = some (.ok (), ()) → Q g') := by
  have hsafe := Program.Safe.of_invariant undoable_step (h () g hg) hundoable
  refine ⟨hsafe.invariant undoable_step hrun hundoable, fun hresult => ?_⟩
  obtain rfl := Program.eq_done_of_result? hresult
  exact hsafe.result hrun

end Undo

section Commit

variable {file : Name δ → Option Bytes} {uid token : ℕ}

/-- The files are these, and a theme that is pending is complete. -/
def Committing (file : Name δ → Option Bytes) (uid token : ℕ) (g : Greeter δ) : Prop :=
  g.file = file ∧ (∀ kind, kind ≠ .theme → g.journal kind = none) ∧
    ∀ journal, g.journal .theme = some journal → journal.caller = some uid ∧
      journal.token = token ∧ journal.Valid sheets ∧
        (∀ image ∈ journal.images, image.new ≠ none) ∧ Renewed file journal

/-- When `commit` may take a step. -/
def CommitStep (_ : Greeter δ) (_ : Unit) : Step δ → Prop
  | .read _ _ | .readJournal _ | .writeJournal .theme none => True
  | _ => False

theorem committing_step (g : Greeter δ) (s : Unit) (op : Step δ) (answer : (Helper δ).Res op)
    (g' : Greeter δ) (hpermitted : CommitStep g s op) (hstep : greeter true g s op answer g')
    (h : Committing file uid token g) : Committing file uid token g' := by
  have hdoes := hstep.1
  cases op with
  | read name limit =>
    obtain rfl : g' = g := hdoes.1
    exact h
  | readJournal kind =>
    obtain rfl : g' = g := hdoes.1
    exact h
  | scan => exact hpermitted.elim
  | write name data replace => exact hpermitted.elim
  | writeJournal kind journal =>
    cases kind with
    | fields | wallpaper => exact hpermitted.elim
    | theme =>
      cases journal with
      | some journal => exact hpermitted.elim
      | none =>
        rcases hdoes with rfl | ⟨-, rfl⟩
        · refine ⟨h.1, fun kind hkind => (setJournal_journal_ne none hkind).trans (h.2.1 kind hkind),
            fun journal hjournal => ?_⟩
          rw [setJournal_journal] at hjournal
          cases hjournal
        · exact h

/-- The greeter, with a theme that stays complete. -/
def committing (file : Name δ → Option Bytes) (uid token : ℕ) :
    Environment (Helper δ) Unit (Greeter δ) :=
  fun g s op answer g' => greeter true g s op answer g' ∧ Committing file uid token g'

theorem observing_commit : Observing (committing (δ := δ) file uid token) CommitStep where
  does _ _ _ _ _ hstep := hstep.1.1
  read _ _ _ _ := trivial
  readJournal _ _ _ := trivial

/-- A commitment that returns leaves nothing pending. -/
theorem commit_theme (lib : Library δ) :
    Triple (committing file uid token) CommitStep (Committing file uid token)
      (theme uid token (.commit : ThemeAction lib)) (fun _ => Untouched file) fun _ => True := by
  refine .bind (observing_commit.refuse .wallpaper fun _ _ => trivial) fun _ =>
    bind (observing_commit.refuse .fields fun _ _ => trivial) fun _ =>
      bind (observing_commit.journal .theme fun _ _ => trivial) fun pending =>
        bind (Observing.checkCaller uid token pending fun _ _ => trivial) fun _ => ?_
  have huntouched : ∀ g : Greeter δ, Committing file uid token g → g.journal .theme = none →
      Untouched file g := by
    refine fun g hg hnone => ⟨hg.1, fun kind => ?_⟩
    by_cases hkind : kind = .theme
    · exact hkind ▸ hnone
    · exact hg.2.1 kind hkind
  cases pending with
  | none => exact .pure fun g hg => huntouched g hg.1.1.1 (hg.2.1 rfl)
  | some journal =>
    refine .bind (observing_commit.requireNew journal.images fun _ _ => trivial) fun _ => ?_
    intro s w hw
    refine ⟨trivial, fun answer w' hstep => ?_⟩
    obtain ⟨⟨hwrites, -⟩, hcommitting⟩ := hstep
    rcases hwrites with rfl | ⟨⟨e, rfl⟩, rfl⟩
    · cases answer with
      | ok _ => exact huntouched _ hcommitting (setJournal_journal .theme none)
      | error e => exact trivial
    · exact trivial

/-- Wherever a commitment is stopped, the theme is complete; where it returns, nothing is
pending. -/
theorem commit_runs {g g' : Greeter δ} (hg : Committing file uid token g)
    {p : Program (Helper δ) Unit (Except Fault Unit × Unit)}
    (hrun : Program.Steps (greeter true) g
      (theme uid token (.commit : ThemeAction lib) ()) g' p) :
    Committing file uid token g' ∧ (p.result? = some (.ok (), ()) → Untouched file g') := by
  have hsafe := Program.Safe.of_invariant committing_step (commit_theme lib () g hg) hg
  refine ⟨hsafe.invariant committing_step hrun hg, fun hresult => ?_⟩
  obtain rfl := Program.eq_done_of_result? hresult
  exact hsafe.result hrun

end Commit

section Working

variable {file : Name δ → Option Bytes} {uid token : ℕ}

/-- What works to the end returns. -/
theorem Works.returns {P : Greeter δ → Prop} {m : HelperAct δ Unit} {Q : Unit → Greeter δ → Prop}
    (h : Works P m Q) {g : Greeter δ} (hg : P g) :
    ∃ g', Program.Steps (greeter true) g (m ()) g' (.done (.ok (), ())) := by
  obtain ⟨⟨outcome, _⟩, g', hrun, hpost⟩ := (h () g hg).terminates
  cases outcome with
  | error e => exact hpost.elim
  | ok a => exact ⟨g', hrun.mono greeter_of_working⟩

/-- A journal that is not there needs no helper. -/
theorem works_untouched (lib : Library δ) {action : ThemeAction lib}
    (haction : action = .rollback ∨ action = .commit) :
    Works (fun g : Greeter δ => ∀ kind, g.journal kind = none) (theme uid token action)
      (fun _ _ => True) := by
  refine .bind (works_refuse fun g hg => hg .wallpaper) fun _ =>
    bind (works_refuse fun g hg => hg .fields) fun _ =>
      bind (works_readJournal .theme) fun pending => .assume (p := pending = none)
        (fun g hg => hg.2.trans (hg.1 .theme)) fun hpending => ?_
  subst hpending
  rcases haction with rfl | rfl
  · exact .bind (Q := fun _ _ => True) (.pure fun _ _ => trivial) fun _ =>
      pure fun _ _ => trivial
  · exact .bind (Q := fun _ _ => True) (.pure fun _ _ => trivial) fun _ =>
      pure fun _ _ => trivial

/-- A rollback can return. -/
theorem rollback_returns (lib : Library δ) {g : Greeter δ} (hg : Undoable file uid token g) :
    ∃ g', Program.Steps (greeter true) g (theme uid token (.rollback : ThemeAction lib) ()) g'
      (.done (.ok (), ())) := by
  rcases hg with hg | ⟨journal, hg⟩
  · exact (works_untouched lib (.inl rfl)).returns hg.2
  · have hworks := works_rollbackTheme lib hg.valid hg.nodup hg.caller
    rw [hg.token] at hworks
    exact hworks.returns ⟨hg.others, hg.stored, hg.current, fun _ h hnot => (hnot h).elim⟩

/-- A commitment can return. -/
theorem commit_returns (lib : Library δ) {g : Greeter δ} (hg : Committing file uid token g) :
    ∃ g', Program.Steps (greeter true) g (theme uid token (.commit : ThemeAction lib) ()) g'
      (.done (.ok (), ())) := by
  obtain ⟨hfile, hothers, htheme⟩ := hg
  cases hjournal : g.journal .theme with
  | none =>
    refine (works_untouched lib (.inr rfl)).returns fun kind => ?_
    by_cases hkind : kind = .theme
    · exact hkind ▸ hjournal
    · exact hothers kind hkind
  | some journal =>
    obtain ⟨hcaller, htoken, hvalid, hpresent, hrenewed⟩ := htheme journal hjournal
    have hworks : Works (fun g' : Greeter δ => g' = g) (theme uid token (.commit : ThemeAction lib))
        (fun _ _ => True) := by
      refine .bind (works_refuse fun g' hg' => hg' ▸ hothers .wallpaper (by decide)) fun _ =>
        bind (works_refuse fun g' hg' => hg' ▸ hothers .fields (by decide)) fun _ =>
          bind (works_readJournal .theme) fun pending => .assume
            (p := pending = some journal) (fun g' hg' => hg'.2.trans (hg'.1 ▸ hjournal))
              fun hpending => ?_
      subst hpending
      refine .bind (Q := fun _ g' => g' = g) (.ite (fun hno => (hno hvalid).elim)
        fun _ => .ite (fun hno => ?_) fun _ => .pure fun _ hg' => hg'.1) fun _ => ?_
      · simp [hcaller, htoken] at hno
      refine .bind (.forEach_const fun image himage => ?_) fun _ =>
        (works_removeJournal .theme).mono (fun _ h => h) (fun _ _ _ => trivial) fun _ h => h
      refine .bind (Q := fun data g' => g' = g ∧ some data = image.new) ?_ fun data =>
        assume (fun _ hg' => hg'.2) fun hdata =>
          ite (fun _ => .pure fun _ hg' => hg'.1) fun hno => (hno hdata).elim
      refine .bind (works_read fun g' hg' => ?_) fun data => ?_
      · rw [hg', hfile, hrenewed image himage]
        exact (hvalid.small image himage).2
      · refine .assume (p := data = image.new) (fun g' hg' => ?_) fun hdata => ?_
        · rw [hg'.2, hg'.1, hfile, hrenewed image himage]
        · obtain ⟨text, htext⟩ := Option.ne_none_iff_exists'.1 (hpresent image himage)
          rw [htext] at hdata
          subst hdata
          exact .pure fun g' hg' => ⟨hg'.1, htext.symm⟩
    exact hworks.returns rfl

end Working

section Looking

variable {uid token : ℕ}

/-- A commitment or a rollback of a token that is not pending changes nothing. -/
theorem looks_theme (lib : Library δ) {action : ThemeAction lib}
    (haction : action = .rollback ∨ action = .commit) {g g' : Greeter δ}
    (hother : ∀ journal, g.journal .theme = some journal → journal.token ≠ token)
    {p : Program (Helper δ) Unit (Except Fault Unit × Unit)}
    (hrun : Program.Steps (greeter true) g (theme uid token action ()) g' p) : g' = g := by
  have hstuck : Stuck true g (fun _ => True) (theme uid token action) (fun _ _ => True) := by
    refine .bind (observing_looks.refuse .wallpaper fun _ hw => hw.1) fun _ =>
      bind (observing_looks.refuse .fields fun _ hw => hw.1.1) fun _ =>
        bind (observing_looks.journal .theme fun _ hw => hw.1.1.1) fun pending => ?_
    cases pending with
    | none =>
      refine .bind (Q := fun _ w => w = g ∧ True) (.pure fun w hw => hw.1.1.1) fun _ => ?_
      rcases haction with rfl | rfl
      · exact .pure fun _ hw => hw
      · exact .pure fun _ hw => hw
    | some journal =>
      refine .assume (p := journal.token ≠ token) (fun w hw => ?_) fun hne => ?_
      · obtain ⟨⟨⟨⟨rfl, -⟩, -⟩, -⟩, -, hsome⟩ := hw
        obtain ⟨stored, hstored, hsame⟩ := hsome journal rfl
        exact hsame.1 ▸ hother stored hstored
      · refine .bind (Q := fun _ _ => False) (.ite (fun _ => .raise fun _ hw =>
          hw.1.1.1.1) fun _ => .ite (fun _ => .raise fun _ hw => hw.1.1.1.1) fun hsame =>
            (hsame (.inr hne)).elim) fun _ => .assume (p := False) (fun _ hw => hw) fun h => h.elim
  exact hstuck.kept trivial hrun

end Looking

end Preseed.Appearance
