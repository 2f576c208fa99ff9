import Preseed.Appearance.GreeterState
import Preseed.Appearance.TransactionRules

/-!
# Rules of the greeter operations

Every step of every operation is permitted, so the invariant holds wherever an operation is
stopped.
-/

namespace Preseed.Appearance

open Effects

variable {δ : Type} [DecidableEq δ] {lib : Library δ} {torn : Bool}

/-- An environment in which reads may be issued, and do what they do. -/
structure Observing (E : Environment (Helper δ) Unit (Greeter δ))
    (G : Guard (Helper δ) Unit (Greeter δ)) : Prop where
  does : ∀ w s op answer w', E w s op answer w' → op.does w answer w'
  read : ∀ w s name limit, G w s (.read name limit)
  readJournal : ∀ w s kind, G w s (.readJournal kind)

namespace Observing

variable {E : Environment (Helper δ) Unit (Greeter δ)} {G : Guard (Helper δ) Unit (Greeter δ)}
  {P R : Greeter δ → Prop} (h : Observing E G)

include h

theorem reading : Reading config E G Greeter.file := by
  intro P R name limit hR s w hw
  refine ⟨h.read w s name limit, fun answer w' hstep => ?_⟩
  obtain ⟨rfl, hdata⟩ := h.does _ _ _ _ _ hstep
  cases answer with
  | ok data => exact ⟨hw, hdata data rfl⟩
  | error e => exact hR w' hw

/-- The rule of a file that must be there. -/
theorem file (name : Name δ) (limit : ℕ) (hR : ∀ w, P w → R w) :
    Triple E G P (readFile name limit) (fun data w => P w ∧ w.file name = some data) R := by
  refine .bind (h.reading P R name limit hR) fun data => ?_
  cases data with
  | none => exact .raise fun w hw => hR w hw.1
  | some data => exact .pure fun w hw => ⟨hw.1, hw.2.1.symm⟩

/-- The rule of a journal that is read. -/
theorem journal (kind : Kind) (hR : ∀ w, P w → R w) :
    Triple E G P (Appearance.readJournal kind) (fun pending w => P w ∧
      (pending = none → w.journal kind = none) ∧ ∀ journal, pending = some journal →
        ∃ stored, w.journal kind = some stored ∧ journal.Same stored) R := by
  intro s w hw
  refine ⟨h.readJournal w s kind, fun answer w' hstep => ?_⟩
  obtain ⟨rfl, hnone, hsome⟩ := h.does _ _ _ _ _ hstep
  cases answer with
  | ok pending =>
    refine ⟨hw, ?_, ?_⟩
    · rintro rfl
      exact hnone rfl
    · rintro journal rfl
      exact hsome journal rfl
  | error e => exact hR w' hw

/-- The rule of a journal that must not be there. -/
theorem refuse (kind : Kind) (hR : ∀ w, P w → R w) :
    Triple E G P (Appearance.refuse kind) (fun _ w => P w ∧ w.journal kind = none) R := by
  refine .bind (h.journal kind hR) fun pending => .ite (fun _ => ?_) fun hnone => ?_
  · exact .raise fun w hw => hR w hw.1
  · have hpending : pending = none := by simpa using hnone
    exact .pure fun w hw => ⟨hw.1, hw.2.1 hpending⟩

/-- The rule of the new images that must be there. -/
theorem requireNew (images : List (Image (Name δ))) (hR : ∀ w, P w → R w) :
    Triple E G P (Act.forEach images Appearance.requireNew) (fun _ => P) R := by
  refine .forEach_const fun image _ => .bind (h.file image.name maxText hR)
    fun current => .ite (fun _ => ?_) fun _ => ?_
  · exact .pure fun _ hw => hw.1
  · exact .raise fun w hw => hR w hw.1

omit h in
theorem checkCaller (uid token : ℕ) (pending : Option (Journal (Name δ)))
    (hR : ∀ w, P w → R w) :
    Triple E G P (Appearance.checkCaller uid token pending) (fun _ => P) R := by
  cases pending with
  | none => exact .pure fun _ hw => hw
  | some journal =>
    exact .ite (fun _ => .raise hR) fun _ =>
      Triple.ite (fun _ => .raise hR) fun _ => .pure fun _ hw => hw

end Observing

/-- The greeter, with the invariant after each step. -/
def guarded (lib : Library δ) (torn : Bool) : Environment (Helper δ) Unit (Greeter δ) :=
  fun w s op answer w' => greeter torn w s op answer w' ∧ Sound lib torn w'

/-- From `P`, a part of an operation returns in `Q`, or raises in `R`. -/
abbrev Rule (lib : Library δ) (torn : Bool) {α : Type} (P : Greeter δ → Prop)
    (m : HelperAct δ α) (Q : α → Greeter δ → Prop) (R : Greeter δ → Prop) : Prop :=
  Triple (guarded lib torn) (Permitted lib torn) P m Q R

theorem observing_guarded : Observing (guarded lib torn) (Permitted lib torn) where
  does _ _ _ _ _ hstep := hstep.1.1
  read _ _ _ _ := trivial
  readJournal _ _ _ := trivial

section Steps

variable {P R : Greeter δ → Prop}

theorem rule_scan (hR : ∀ w, P w → R w) : Rule lib torn P (step .scan) (fun _ => P) R := by
  intro s w hw
  refine ⟨trivial, fun answer w' hstep => ?_⟩
  obtain rfl : w' = w := hstep.1.1
  cases answer with
  | ok entries => exact hw
  | error e => exact hR w' hw

/-- The rule of a write to the greeter directory. -/
theorem rule_write {name : Name δ} {data : Option Bytes} {replace : Bool}
    {Q : Greeter δ → Prop} (hpermitted : ∀ w, P w → Permitted lib torn w () (.write name data replace))
    (hQ : ∀ w, P w → Sound lib torn (w.setFile name data) → Q (w.setFile name data))
    (hR : ∀ w, P w → R w)
    (hfailed : ∀ w, P w → Sound lib torn (w.setFile name data) → R (w.setFile name data)) :
    Rule lib torn P (step (.write name data replace)) (fun _ => Q) R := by
  intro s w hw
  refine ⟨hpermitted w hw, fun answer w' hstep => ?_⟩
  obtain ⟨⟨⟨hwrites, -⟩, -⟩, hsound⟩ := hstep
  rcases hwrites with rfl | ⟨⟨e, rfl⟩, rfl⟩
  · cases answer with
    | ok _ => exact hQ w hw hsound
    | error e => exact hfailed w hw hsound
  · exact hR w' hw

/-- The rule of the removal of a journal. -/
theorem rule_removeJournal (kind : Kind) (hP : ∀ w, P w → Sound lib torn w) :
    Rule lib torn P (removeJournal kind)
      (fun _ w => Sound lib torn w ∧ w.journal kind = none) (Sound lib torn) := by
  intro s w hw
  refine ⟨trivial, fun answer w' hstep => ?_⟩
  rcases hstep.1.1 with rfl | ⟨⟨e, rfl⟩, rfl⟩
  · cases answer with
    | ok _ => exact ⟨hstep.2, setJournal_journal kind none⟩
    | error e => exact hstep.2
  · exact hP w' hw

end Steps

/-- A journal is pending, and may still be rolled back. -/
def Holds (lib : Library δ) (torn : Bool) (kind : Kind) (journal : Journal (Name δ))
    (w : Greeter δ) : Prop :=
  Sound lib torn w ∧ ∃ stored, w.journal kind = some stored ∧
    (torn = false → stored.phase = .prepared) ∧ journal.images.Perm stored.images

section Holds

variable {kind : Kind} {journal : Journal (Name δ)} {w : Greeter δ}

omit [DecidableEq δ] in
theorem Holds.sheet (h : Holds lib torn kind journal w) {image : Image (Name δ)}
    (himage : image ∈ journal.images) : ∃ sheet, image.name = .sheet sheet := by
  obtain ⟨hsound, stored, hstored, -, hperm⟩ := h
  exact (hsound.pending kind stored hstored).sheet (hperm.mem_iff.1 himage)

omit [DecidableEq δ] in
theorem Holds.nodup (h : Holds lib torn kind journal w) :
    (journal.images.map Image.name).Nodup := by
  obtain ⟨hsound, stored, hstored, -, hperm⟩ := h
  exact (hperm.map _).nodup_iff.2 (hsound.pending kind stored hstored).nodup

omit [DecidableEq δ] in
/-- A file of the pending journal may become one of its images. -/
theorem Holds.permitted (h : Holds lib torn kind journal w) {image : Image (Name δ)}
    (himage : image ∈ journal.images) {data : Option Bytes}
    (hdata : data = image.old ∨ data = image.new) :
    Permitted lib torn w () (.write image.name data true) := by
  obtain ⟨sheet, hname⟩ := h.sheet himage
  obtain ⟨-, stored, hstored, hphase, hperm⟩ := h
  rw [hname]
  exact ⟨kind, stored, hstored, hphase, image, hperm.mem_iff.1 himage, hname, hdata⟩

theorem Holds.setFile (h : Holds lib torn kind journal w) {name : Name δ} {data : Option Bytes}
    (hsound : Sound lib torn (w.setFile name data)) :
    Holds lib torn kind journal (w.setFile name data) :=
  ⟨hsound, h.2⟩

end Holds

section Transaction

variable {journal : Journal (Name δ)}

/-- A file of the pending journal is written. -/
theorem writing_config {kind : Kind} {image : Image (Name δ)} (himage : image ∈ journal.images)
    {data : Option Bytes} (hdata : data = image.old ∨ data = image.new) :
    Writing config (guarded lib torn) (Permitted lib torn) Greeter.file
      (Holds lib torn kind journal) image.name data := by
  refine fun before => rule_write (fun _ hw => hw.1.permitted himage hdata)
    (fun w hw hsound => ⟨hw.1.setFile hsound, ?_⟩) (fun _ hw => hw.1)
    fun _ hw hsound => hw.1.setFile hsound
  rw [← hw.2]
  rfl

/-- The rule of `rollback`. -/
theorem rule_rollback (kind : Kind) (journal : Journal (Name δ)) :
    Rule lib torn (Holds lib torn kind journal) (rollback config journal)
      (fun _ => Holds lib torn kind journal) (Holds lib torn kind journal) :=
  Triple.assume (fun _ hw => hw.nodup) fun hnodup =>
    (triple_rollback observing_guarded.reading hnodup fun _ himage => writing_config himage (.inl rfl)).mono
      (fun _ h => h) (fun _ _ hw => hw.1) fun _ h => h

/-- All files are the new images. -/
def Applied (journal : Journal (Name δ)) (w : Greeter δ) : Prop := Renewed w.file journal

/-- The rule of `apply`. -/
theorem rule_apply (kind : Kind) (journal : Journal (Name δ)) :
    Rule lib torn (Holds lib torn kind journal) (apply config journal)
      (fun _ w => Holds lib torn kind journal w ∧ Applied journal w)
      (Holds lib torn kind journal) :=
  Triple.assume (fun _ hw => hw.nodup) fun hnodup =>
    triple_apply observing_guarded.reading hnodup fun _ himage => writing_config himage (.inr rfl)

end Transaction

end Preseed.Appearance
