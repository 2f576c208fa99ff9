import Preseed.Appearance.LateHelpers

/-!
# Rules of the engine's steps

Each step of the engine keeps the invariant, and leads from one phase of a change to the next.
-/

namespace Preseed.Appearance

open Effects

variable {δ ν : Type} {lib : Library δ} {uid : ℕ} {allowed : List ν} {tokens : List ℕ}
  {w w' : Desk lib ν} {journal : Change ν}

section Phases

theorem Recorded.forget (h : Recorded allowed tokens journal w) : Recorded allowed [] journal w :=
  { h with fresh := by simp }

theorem Ended.consistent (h : Ended tokens w) : Consistent uid allowed [] w :=
  .inl { h with fresh := by simp }

theorem Waiting.consistent (h : Waiting allowed tokens journal w) : Consistent uid allowed [] w :=
  .inr ⟨journal, .inl { h with toRecorded := h.toRecorded.forget }⟩

theorem Written.consistent (h : Written uid allowed tokens journal w) :
    Consistent uid allowed [] w :=
  .inr ⟨journal, .inr (.inl { h with toRecorded := h.toRecorded.forget })⟩

theorem Committed.consistent (h : Committed uid allowed tokens journal w) :
    Consistent uid allowed [] w :=
  .inr ⟨journal, .inr (.inr { h with toRecorded := h.toRecorded.forget })⟩

theorem Consistent.forget (h : Consistent uid allowed tokens w) : Consistent uid allowed [] w := by
  rcases h with h | ⟨journal, h | h | h⟩
  · exact h.consistent
  · exact h.consistent
  · exact h.consistent
  · exact h.consistent

theorem Recorded.remember (h : Recorded allowed [] journal w) (hfresh : ∀ t ∈ tokens, Fresh w t) :
    Recorded allowed tokens journal w :=
  { h with fresh := hfresh }

/-- Tokens that are fresh may be remembered. -/
theorem Consistent.remember (h : Consistent uid allowed [] w) (hfresh : ∀ t ∈ tokens, Fresh w t) :
    Consistent uid allowed tokens w := by
  rcases h with h | ⟨journal, h | h | h⟩
  · exact .inl { h with fresh := hfresh }
  · exact .inr ⟨journal, .inl { h with toRecorded := h.toRecorded.remember hfresh }⟩
  · exact .inr ⟨journal, .inr (.inl { h with toRecorded := h.toRecorded.remember hfresh })⟩
  · exact .inr ⟨journal, .inr (.inr { h with toRecorded := h.toRecorded.remember hfresh })⟩

section Same

variable {journal' stored : Change ν}

/-- Two journals that were read differ in the order of their images. -/
theorem Change.Same.of_stored (h : journal.Same stored) (h' : journal'.Same stored) :
    ∃ images, images.Perm journal.images ∧ journal' = { journal with images := images } := by
  refine ⟨journal'.images, h'.2.trans h.2.symm, ?_⟩
  rw [h.1, h'.1]

theorem Journal.Valid.perm {name : Type} {allowed : List name} {journal : Journal name}
    (h : journal.Valid allowed) {images : List (Image name)} (hperm : images.Perm journal.images) :
    ({ journal with images := images } : Journal name).Valid allowed := by
  refine ⟨fun image himage => h.1 image (hperm.mem_iff.1 himage), ?_⟩
  have hsize : totalSize images = totalSize journal.images := (hperm.map _).sum_nat
  exact hsize ▸ h.2

variable {images : List (Image ν)}

theorem Recorded.perm (h : Recorded allowed tokens journal w) (hperm : images.Perm journal.images) :
    Recorded allowed tokens { journal with images := images } w where
  stored := by
    obtain ⟨stored, hstored, hlast, hsame⟩ := h.stored
    refine ⟨stored, hstored, hlast, ?_, hperm.trans hsame.2⟩
    rw [hsame.1]
  valid := h.valid.perm hperm
  nodup := (hperm.map _).nodup_iff.2 h.nodup
  old image himage := h.old image (hperm.mem_iff.1 himage)
  frame name hname := h.frame name fun image himage => hname image (hperm.mem_iff.2 himage)
  unchanged := h.unchanged
  oldSettings := h.oldSettings
  fresh := h.fresh

theorem Undecided.perm (h : Undecided uid journal w) :
    Undecided uid { journal with images := images } w := ⟨h.1, h.2, h.3, h.4⟩

theorem Decided.perm (h : Decided uid journal w) :
    Decided uid { journal with images := images } w := ⟨h.1, h.2, h.3, h.4, h.5⟩

/-- A phase does not depend on the order of the images. -/
theorem Waiting.same (h : Waiting allowed tokens journal w) (hstored : w.journal = some stored)
    (hsame : journal'.Same stored) : Waiting allowed tokens journal' w := by
  obtain ⟨stored', hstored', -, hsame'⟩ := h.stored
  obtain rfl : stored' = stored := Option.some.inj (hstored'.symm.trans hstored)
  obtain ⟨images, hperm, rfl⟩ := hsame'.of_stored hsame
  exact {
    h.toRecorded.perm hperm with
    prepared := h.prepared
    notStarted := h.notStarted
    files := h.files
    settings := h.settings
    unasked := h.unasked }

theorem Written.same (h : Written uid allowed tokens journal w) (hstored : w.journal = some stored)
    (hsame : journal'.Same stored) : Written uid allowed tokens journal' w := by
  obtain ⟨stored', hstored', -, hsame'⟩ := h.stored
  obtain rfl : stored' = stored := Option.some.inj (hstored'.symm.trans hstored)
  obtain ⟨images, hperm, rfl⟩ := hsame'.of_stored hsame
  exact {
    h.toRecorded.perm hperm with
    prepared := h.prepared
    started := h.started
    accepted := h.accepted
    current := fun image himage => h.current image (hperm.mem_iff.1 himage)
    undecided := h.undecided.perm }

theorem Committed.same (h : Committed uid allowed tokens journal w)
    (hstored : w.journal = some stored) (hsame : journal'.Same stored) :
    Committed uid allowed tokens journal' w := by
  obtain ⟨stored', hstored', -, hsame'⟩ := h.stored
  obtain rfl : stored' = stored := Option.some.inj (hstored'.symm.trans hstored)
  obtain ⟨images, hperm, rfl⟩ := hsame'.of_stored hsame
  exact {
    h.toRecorded.perm hperm with
    committed := h.committed
    started := h.started
    renewed := fun image himage => h.renewed image (hperm.mem_iff.1 himage)
    settled := h.settled
    decided := h.decided.perm }

end Same

section End

theorem Recorded.removed (h : Recorded allowed tokens journal w) :
    ∀ token ∈ tokens, Fresh (w.record none) token :=
  fun token htoken => ⟨(h.fresh token htoken).1, (h.fresh token htoken).2.1, nofun⟩

theorem Still.self {file : Name δ → Option Bytes} (h : Still file w) : Still w.greeter.file w :=
  h.1.1.symm ▸ h

/-- A change that has written nothing can be dropped. -/
theorem Waiting.ended (h : Waiting allowed tokens journal w) : Ended tokens (w.record none) where
  journal := rfl
  still := h.unasked.1.self
  complete := .inl ⟨h.files, h.settings, h.unasked.1.1.1⟩
  fresh := h.toRecorded.removed

/-- A change that is undone can be dropped. -/
theorem Written.ended (h : Written uid allowed tokens journal w) (hstill : Still w.base.greeter w)
    (hrestored : Restored w.file journal.toJournal) (hsettings : w.settings = w.base.settings) :
    Ended tokens (w.record none) where
  journal := rfl
  still := hstill.self
  complete := by
    refine .inl ⟨funext fun name => ?_, hsettings, hstill.1.1⟩
    by_cases hname : ∃ image ∈ journal.images, image.name = name
    · obtain ⟨image, himage, rfl⟩ := hname
      exact (hrestored image himage).trans (h.old image himage).symm
    · exact h.frame name fun image himage hsame => hname ⟨image, himage, hsame⟩
  fresh := h.toRecorded.removed

/-- A committed change that the greeter has finished can be dropped. -/
theorem Committed.ended (h : Committed uid allowed tokens journal w)
    (hstill : Still w.greeter.file w) : Ended tokens (w.record none) where
  journal := rfl
  still := hstill
  complete := by
    obtain ⟨stored, -, hlast, hsame⟩ := h.stored
    have hmem : ∀ image, image ∈ stored.images ↔ image ∈ journal.images :=
      fun image => hsame.2.mem_iff.symm
    have hgreeter : stored.greeter = journal.greeter := by rw [hsame.1]
    have hnew : stored.newSettings = journal.newSettings := by rw [hsame.1]
    refine .inr ⟨stored, hlast, ⟨fun image himage => h.renewed image ((hmem image).1 himage),
      fun name hname => h.frame name fun image himage => hname image ((hmem image).2 himage),
      ?_, fun hs => h.decided.edited (hgreeter ▸ hs), fun hs => ?_⟩⟩
    · rw [hnew]
      cases hsettings : journal.newSettings with
      | some new => exact h.settled new hsettings
      | none =>
        cases hold : journal.oldSettings with
        | none => exact (h.unchanged hold).2
        | some old => exact ((h.oldSettings old hold).2 hsettings).elim
    · exact (h.decided.still (hgreeter ▸ hs)).1.1
  fresh := h.toRecorded.removed

end End

end Phases

end Preseed.Appearance
