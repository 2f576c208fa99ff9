import Preseed.Appearance.Transaction
import Preseed.Effects.Triple

/-!
# Rules of transactions

What the transaction functions do in any tree whose reads change nothing and whose writes change
one file.
-/

namespace Preseed.Appearance

open Effects List

variable {ι : Interface} {ν W : Type}

/-- Reads change nothing, and return what is there. -/
def Reading (tree : Tree ι ν) (E : Environment ι Unit W) (G : Guard ι Unit W)
    (file : W → ν → Option Bytes) : Prop :=
  ∀ (P R : W → Prop) (name : ν) (limit : ℕ), (∀ w, P w → R w) →
    Triple E G P (tree.read name limit)
      (fun data w => P w ∧ data = file w name ∧ size data ≤ limit) R

/-- Under `H`, one file may be written; it changes, or the write fails. -/
def Writing [DecidableEq ν] (tree : Tree ι ν) (E : Environment ι Unit W) (G : Guard ι Unit W)
    (file : W → ν → Option Bytes) (H : W → Prop) (name : ν) (data : Option Bytes) : Prop :=
  ∀ before, Triple E G (fun w => H w ∧ file w = before) (tree.write name data)
    (fun _ w => H w ∧ file w = Function.update before name data) H

/-- The files of a journal are the old images. -/
def Restored (file : ν → Option Bytes) (journal : Journal ν) : Prop :=
  ∀ image ∈ journal.images, file image.name = image.old

/-- The files of a journal are the new images. -/
def Renewed (file : ν → Option Bytes) (journal : Journal ν) : Prop :=
  ∀ image ∈ journal.images, file image.name = image.new

/-- What `plan` makes of updates. -/
structure Planned (updates : List (ν × Option Bytes)) (images : List (Image ν))
    (file : ν → Option Bytes) : Prop where
  each : ∀ image ∈ images, file image.name = image.old ∧ (image.name, image.new) ∈ updates ∧
    size image.old ≤ maxImageBytes ∧ size image.new ≤ maxImageBytes
  total : totalSize images ≤ maxTotalImageBytes

theorem totalSize_append (images images' : List (Image ν)) :
    totalSize (images ++ images') = totalSize images + totalSize images' := by
  simp [totalSize]

variable {tree : Tree ι ν} {E : Environment ι Unit W} {G : Guard ι Unit W}
  {file : W → ν → Option Bytes} {P R : W → Prop} {journal : Journal ν}

theorem triple_validate [DecidableEq ν] (allowed : List ν) (journal : Journal ν) (hR : ∀ w, P w → R w) :
    Triple E G P (validate allowed journal) (fun _ w => P w ∧ journal.Valid allowed) R :=
  Triple.ite (fun hvalid => .pure fun _ hw => ⟨hw, hvalid⟩) fun _ => .raise hR

section Reading

variable (hread : Reading tree E G file)

include hread

theorem triple_checkCurrent (undo : Bool) (journal : Journal ν) (hR : ∀ w, P w → R w) :
    Triple E G P (checkCurrent tree undo journal) (fun _ => P) R := by
  refine .forEach_const fun image _ => .bind (hread P R image.name maxText hR)
    fun current => .ite (fun _ => ?_) fun _ => ?_
  · exact .pure fun _ hw => hw.1
  · exact .raise fun w hw => hR w hw.1

theorem triple_checkCommitted (journal : Journal ν) (hR : ∀ w, P w → R w) :
    Triple E G P (checkCommitted tree journal) (fun _ => P) R := by
  refine .forEach_const fun image _ => .bind (hread P R image.name maxText hR)
    fun current => .ite (fun _ => ?_) fun _ => ?_
  · exact .pure fun _ hw => hw.1
  · exact .raise fun w hw => hR w hw.1

/-- The rule of `plan`. -/
theorem triple_plan (updates : List (ν × Option Bytes)) (token : ℕ) (hR : ∀ w, P w → R w) :
    Triple E G P (plan tree updates token) (fun journal w => P w ∧
      journal.phase = .prepared ∧ journal.token = token ∧ Planned updates journal.images (file w) ∧
        (journal.images.map Image.name).Sublist (updates.map Prod.fst)) R := by
  have hloop := Triple.fold (ε := Fault) (E := E) (G := G) (σ := Unit) (R := R) (l := updates)
    (f := planUpdate tree) (b := ([], 0))
    (fun rest planned w => P w ∧ Planned updates planned.1 (file w) ∧
      totalSize planned.1 = planned.2 ∧
      (planned.1.map Image.name ++ rest.map Prod.fst).Sublist (updates.map Prod.fst) ∧
        ∀ update ∈ rest, update ∈ updates) ?_
  · refine .bind (hloop.before fun w hw => ⟨hw, ⟨by simp, by simp [totalSize]⟩, rfl, ?_,
      fun _ h => h⟩) fun planned => .pure fun w hw => ⟨hw.1, rfl, rfl, hw.2.1, ?_⟩
    · simp
    · simpa using hw.2.2.2.1
  intro update rest planned
  refine .ite (fun _ => .raise fun w hw => hR w hw.1) fun hsize => ?_
  refine .bind (hread _ R update.1 maxImageBytes fun w hw => hR w hw.1) fun before =>
    Triple.ite (fun _ => .pure fun w hw => ?_) fun _ =>
      Triple.ite (fun _ => .raise fun w hw => hR w hw.1.1) fun htotal =>
        Triple.pure fun w hw => ?_
  · obtain ⟨⟨hP, hplanned, hsum, hsub, hrest⟩, -⟩ := hw
    refine ⟨hP, hplanned, hsum, .trans ?_ hsub, fun u hu => hrest u (mem_cons_of_mem _ hu)⟩
    exact (List.Sublist.refl _).append (sublist_cons_self ..)
  · obtain ⟨⟨hP, hplanned, hsum, hsub, hrest⟩, hbefore, hlimit⟩ := hw
    refine ⟨hP, ⟨fun image himage => ?_, ?_⟩, ?_, ?_,
      fun u hu => hrest u (mem_cons_of_mem _ hu)⟩
    · rcases mem_append.1 himage with himage | himage
      · exact hplanned.each image himage
      · obtain rfl := mem_singleton.1 himage
        exact ⟨hbefore.symm, hrest update (mem_cons_self ..), hlimit, Nat.not_lt.1 hsize⟩
    · rw [totalSize_append, hsum]
      simpa [totalSize, Image.size] using Nat.not_lt.1 htotal
    · rw [totalSize_append, hsum]
      simp [totalSize, Image.size]
    · simpa using hsub

/-- An update that is not planned is there already. -/
theorem triple_plan_covers [DecidableEq ν] (updates : List (ν × Option Bytes)) (token : ℕ) (hR : ∀ w, P w → R w) :
    Triple E G P (plan tree updates token) (fun journal w => P w ∧ ∀ update ∈ updates,
      file w update.1 = update.2 ∨ ∃ image ∈ journal.images, image.name = update.1) R := by
  have hloop := Triple.fold (ε := Fault) (E := E) (G := G) (σ := Unit) (R := R) (l := updates)
    (f := planUpdate tree) (b := ([], 0))
    (fun rest planned w => P w ∧ ∀ update ∈ updates, update ∈ rest ∨
      file w update.1 = update.2 ∨ ∃ image ∈ planned.1, image.name = update.1) ?_
  · exact .bind (hloop.before fun w hw => ⟨hw, fun _ h => .inl h⟩) fun planned =>
      Triple.pure fun w hw => ⟨hw.1, fun update hupdate => (hw.2 update hupdate).resolve_left (by simp)⟩
  intro update rest planned
  refine .ite (fun _ => .raise fun w hw => hR w hw.1) fun _ => ?_
  refine .bind (hread _ R update.1 maxImageBytes fun w hw => hR w hw.1) fun before =>
    Triple.ite (fun hsame => .pure fun w hw => ?_) fun _ =>
      Triple.ite (fun _ => .raise fun w hw => hR w hw.1.1) fun _ =>
        Triple.pure fun w hw => ?_
  · obtain ⟨⟨hP, hdone⟩, hbefore, -⟩ := hw
    refine ⟨hP, fun other hother => ?_⟩
    rcases hdone other hother with hrest | hfile | himage
    · rcases mem_cons.1 hrest with rfl | hrest
      · exact .inr (.inl (hbefore.symm.trans hsame))
      · exact .inl hrest
    · exact .inr (.inl hfile)
    · exact .inr (.inr himage)
  · obtain ⟨⟨hP, hdone⟩, -, -⟩ := hw
    refine ⟨hP, fun other hother => ?_⟩
    rcases hdone other hother with hrest | hfile | ⟨image, himage, hname⟩
    · rcases mem_cons.1 hrest with rfl | hrest
      · exact .inr (.inr ⟨_, mem_append_right _ (mem_singleton.2 rfl), rfl⟩)
      · exact .inl hrest
    · exact .inr (.inl hfile)
    · exact .inr (.inr ⟨image, mem_append_left _ himage, hname⟩)

variable [DecidableEq ν] {H : W → Prop} (hnodup : (journal.images.map Image.name).Nodup)

include hnodup

omit hread in
/-- Writing one image keeps what was done of the others. -/
theorem done_update {before : ν → Option Bytes} {image : Image ν}
    {rest : List (Image ν)} {d : Image ν → Option Bytes} (himage : image ∈ journal.images)
    (hdone : ∀ other ∈ journal.images, other ∉ image :: rest → before other.name = d other) :
    ∀ other ∈ journal.images, other ∉ rest →
      Function.update before image.name (d image) other.name = d other := by
  intro other hother hnot
  by_cases hsame : other = image
  · subst hsame
    exact Function.update_self ..
  · have hname : other.name ≠ image.name := fun hname =>
      hsame (inj_on_of_nodup_map hnodup hother himage hname)
    rw [Function.update_of_ne hname]
    exact hdone other hother (by simp [hsame, hnot])

/-- The rule of `rollback`. -/
theorem triple_rollback
    (hwrite : ∀ image ∈ journal.images, Writing tree E G file H image.name image.old) :
    Triple E G H (rollback tree journal) (fun _ w => H w ∧ Restored (file w) journal) H := by
  refine .bind (triple_checkCurrent hread true journal fun _ hw => hw) fun _ => ?_
  -- the files that are no longer to come are the old images
  have hloop := Triple.forEach (ε := Fault) (E := E) (G := G) (σ := Unit) (R := H)
    (l := journal.images.reverse) (f := restoreImage tree)
    (fun rest w => (H w ∧ ∀ image ∈ journal.images, image ∉ rest → file w image.name = image.old) ∧
      ∀ image ∈ rest, image ∈ journal.images) ?_
  · refine hloop.mono (fun w hw => ⟨⟨hw, fun image himage hnot => ?_⟩, fun image himage => ?_⟩)
      (fun _ w hw => ⟨hw.1.1, fun image himage => hw.1.2 image himage (by simp)⟩) fun _ h => h
    · exact (hnot (mem_reverse.2 himage)).elim
    · exact mem_reverse.1 himage
  intro image rest
  refine .assume (p := image ∈ journal.images ∧ ∀ other ∈ rest, other ∈ journal.images)
    (fun w hw => ⟨hw.2 image (mem_cons_self ..),
      fun other hother => hw.2 other (mem_cons_of_mem _ hother)⟩) fun hmem => ?_
  refine .bind (hread _ H image.name maxText fun w hw => hw.1.1) fun current =>
    Triple.ite (fun hold => .pure fun w hw => ?_) fun _ => ?_
  · obtain ⟨⟨⟨hH, hdone⟩, -⟩, hcurrent, -⟩ := hw
    refine ⟨⟨hH, fun other hother hnot => ?_⟩, hmem.2⟩
    by_cases hsame : other = image
    · rw [hsame, ← hcurrent, hold]
    · exact hdone other hother (by simp [hsame, hnot])
  · refine fun s w hw => wp_mono (hwrite image hmem.1 (file w) s w ⟨hw.1.1.1, rfl⟩) ?_
    rintro (e | _) s' w' hpost
    · exact hpost
    · refine ⟨⟨hpost.1, ?_⟩, hmem.2⟩
      rw [hpost.2]
      exact done_update (d := Image.old) hnodup hmem.1 hw.1.1.2

/-- The rule of `apply`. -/
theorem triple_apply
    (hwrite : ∀ image ∈ journal.images, Writing tree E G file H image.name image.new) :
    Triple E G H (apply tree journal) (fun _ w => H w ∧ Renewed (file w) journal) H := by
  refine .bind (triple_checkCurrent hread false journal fun _ hw => hw) fun _ => ?_
  -- the files that are no longer to come are the new images
  have hloop := Triple.forEach (ε := Fault) (E := E) (G := G) (σ := Unit) (R := H)
    (l := journal.images) (f := fun image => tree.write image.name image.new)
    (fun rest w => (H w ∧ ∀ image ∈ journal.images, image ∉ rest → file w image.name = image.new) ∧
      ∀ image ∈ rest, image ∈ journal.images) ?_
  · exact hloop.mono (fun w hw => ⟨⟨hw, fun _ h hnot => (hnot h).elim⟩, fun _ h => h⟩)
      (fun _ w hw => ⟨hw.1.1, fun image himage => hw.1.2 image himage (by simp)⟩) fun _ h => h
  intro image rest
  refine .assume (p := image ∈ journal.images ∧ ∀ other ∈ rest, other ∈ journal.images)
    (fun w hw => ⟨hw.2 image (mem_cons_self ..),
      fun other hother => hw.2 other (mem_cons_of_mem _ hother)⟩) fun hmem => ?_
  refine fun s w hw => wp_mono (hwrite image hmem.1 (file w) s w ⟨hw.1.1, rfl⟩) ?_
  rintro (e | _) s' w' hpost
  · exact hpost
  · refine ⟨⟨hpost.1, ?_⟩, hmem.2⟩
    rw [hpost.2]
    exact done_update (d := Image.new) hnodup hmem.1 hw.1.2

end Reading

end Preseed.Appearance
