import Preseed.Appearance.Desk

/-!
# Late helpers

A helper that nobody waits for keeps what holds of a change: it may go on undoing or committing it,
and finds nothing where the change has ended.
-/

namespace Preseed.Appearance

open Effects

variable {δ ν : Type} [DecidableEq δ] {lib : Library δ} {uid : ℕ} {w w' : Desk lib ν}
  {journal : Change ν}

/-- The account and its journal are the same. -/
structure SameFiles (w w' : Desk lib ν) : Prop where
  file : w'.file = w.file
  journal : w'.journal = w.journal
  settings : w'.settings = w.settings
  base : w'.base = w.base
  last : w'.last = w.last

/-- A late helper changes the greeter and the late helpers only. -/
structure SameAccount (w w' : Desk lib ν) : Prop extends SameFiles w w' where
  rolledBack : w'.rolledBack = w.rolledBack
  asked : w'.asked = w.asked
  late : ∀ request ∈ w'.late, request ∈ w.late

theorem LateRun.sameAccount {may : Desk lib ν → Request lib → Prop} (h : LateRun uid may w w') :
    SameAccount w w' := by
  obtain ⟨before, request, after, g, p, hlate, -, -, rfl⟩ := h
  refine ⟨⟨rfl, rfl, rfl, rfl, rfl⟩, rfl, rfl, fun other hother => ?_⟩
  rw [hlate]
  rcases List.mem_append.1 hother with hother | hother
  · exact List.mem_append_left _ hother
  · exact List.mem_append_right _ (List.mem_cons_of_mem _ hother)

section Frame

omit [DecidableEq δ]

variable {allowed : List ν} {tokens : List ℕ}

theorem SameAccount.fresh (h : SameAccount w w') {token : ℕ} (hfresh : Fresh w token) :
    Fresh w' token :=
  ⟨h.rolledBack ▸ hfresh.1, fun request hrequest => hfresh.2.1 request (h.late request hrequest),
    h.journal ▸ hfresh.2.2⟩

theorem SameFiles.recorded (h : SameFiles w w') (hrecorded : Recorded allowed tokens journal w)
    (hfresh : ∀ token ∈ tokens, Fresh w' token) : Recorded allowed tokens journal w' where
  stored := by
    rw [h.journal, h.last]
    exact hrecorded.stored
  valid := hrecorded.valid
  nodup := hrecorded.nodup
  old := h.base ▸ hrecorded.old
  frame := by
    rw [h.file, h.base]
    exact hrecorded.frame
  unchanged := by
    rw [h.settings, h.base]
    exact hrecorded.unchanged
  oldSettings := by
    rw [h.base]
    exact hrecorded.oldSettings
  fresh := hfresh

theorem Written.of_same (h : Written uid allowed tokens journal w) (hsame : SameFiles w w')
    (hfresh : ∀ token ∈ tokens, Fresh w' token) (hundecided : Undecided uid journal w') :
    Written uid allowed tokens journal w' :=
  { hsame.recorded h.toRecorded hfresh with
    prepared := h.prepared
    started := h.started
    accepted := h.accepted
    current := by
      rw [hsame.file]
      exact h.current
    undecided := hundecided }

theorem Committed.of_same (h : Committed uid allowed tokens journal w) (hsame : SameFiles w w')
    (hfresh : ∀ token ∈ tokens, Fresh w' token) (hdecided : Decided uid journal w') :
    Committed uid allowed tokens journal w' :=
  { hsame.recorded h.toRecorded hfresh with
    committed := h.committed
    started := h.started
    renewed := by
      rw [hsame.file]
      exact h.renewed
    settled := by
      rw [hsame.settings]
      exact h.settled
    decided := hdecided }

end Frame

/-- One late helper that is in time: what it does to the greeter. -/
theorem LateRun.cases (h : LateRun uid OnTime w w') : ∃ request ∈ w.late,
    (request.action.IsApply → request.token ∉ w.rolledBack) ∧
      ∃ p, Program.Steps (greeter true) w.greeter (theme uid request.token request.action ())
        w'.greeter p := by
  obtain ⟨before, request, after, g, p, hlate, hmay, hrun, rfl⟩ := h
  exact ⟨request, hlate ▸ List.mem_append_right _ (List.mem_cons_self ..), hmay, p, hrun⟩

theorem Still.late {file : Name δ → Option Bytes} (h : Still file w) (hrun : LateRun uid OnTime w w') :
    Still file w' := by
  have hsame := hrun.sameAccount
  obtain ⟨request, hrequest, hmay, p, hsteps⟩ := hrun.cases
  refine ⟨?_, fun other hother happly => hsame.rolledBack ▸ h.2 other (hsame.late other hother) happly⟩
  have hnone : ∀ journal, w.greeter.journal .theme = some journal → journal.token ≠ request.token :=
    fun journal hjournal => by cases (h.1.2 .theme).symm.trans hjournal
  cases haction : request.action with
  | apply edits =>
    have happly : request.action.IsApply := by rw [haction]; trivial
    exact (hmay happly (h.2 request hrequest happly)).elim
  | commit => exact looks_theme lib (.inr haction) hnone hsteps ▸ h.1
  | rollback => exact looks_theme lib (.inl haction) hnone hsteps ▸ h.1

theorem Unasked.late (h : Unasked journal w) (hrun : LateRun uid OnTime w w') :
    Unasked journal w' := by
  have hsame := hrun.sameAccount
  refine ⟨hsame.base ▸ h.1.late hrun, hsame.rolledBack ▸ h.2.1, fun request hrequest => ?_⟩
  exact h.2.2 request (hsame.late request hrequest)

theorem Undecided.late (h : Undecided uid journal w) (hrun : LateRun uid OnTime w w') :
    Undecided uid journal w' := by
  have hsame := hrun.sameAccount
  refine ⟨fun hgreeter => ?_, fun hgreeter request hrequest happly => ?_,
    fun hgreeter request hrequest => h.commit hgreeter request (hsame.late request hrequest),
    fun hgreeter => hsame.base ▸ (h.still hgreeter).late hrun⟩
  · rw [hsame.base]
    have hundoable := h.undoable hgreeter
    obtain ⟨request, hrequest, hmay, p, hsteps⟩ := hrun.cases
    by_cases htoken : request.token = journal.token
    · rw [htoken] at hsteps
      cases haction : request.action with
      | apply edits =>
        rw [haction] at hsteps
        exact ((undo_applyAgain edits).runs hundoable hundoable hsteps).1
      | commit => exact (h.commit hgreeter request hrequest haction htoken).elim
      | rollback =>
        rw [haction] at hsteps
        exact (undo_rollbackTheme.runs hundoable hundoable hsteps).1
    · have hother : ∀ pending, w.greeter.journal .theme = some pending →
          pending.token ≠ request.token := by
        intro pending hpending
        rcases hundoable with hu | ⟨stored, hu⟩
        · cases (hu.2 .theme).symm.trans hpending
        · obtain rfl : stored = pending := Option.some.inj (hu.stored.symm.trans hpending)
          exact fun hsametoken => htoken (hsametoken.symm.trans hu.token)
      cases haction : request.action with
      | apply edits =>
        have happly : request.action.IsApply := by rw [haction]; trivial
        rcases h.apply hgreeter request hrequest happly with hrolled | hown
        · exact (hmay happly hrolled).elim
        · exact (htoken hown).elim
      | commit => exact looks_theme lib (.inr haction) hother hsteps ▸ hundoable
      | rollback => exact looks_theme lib (.inl haction) hother hsteps ▸ hundoable
  · exact hsame.rolledBack ▸ h.apply hgreeter request (hsame.late request hrequest) happly

theorem Decided.late (h : Decided uid journal w) (hrun : LateRun uid OnTime w w') :
    Decided uid journal w' := by
  have hsame := hrun.sameAccount
  have hkept : journal.greeter = true → w'.greeter.file = w.greeter.file ∧
      Committing w.greeter.file uid journal.token w'.greeter := by
    intro hgreeter
    have hcommitting := h.committing hgreeter
    obtain ⟨request, hrequest, hmay, p, hsteps⟩ := hrun.cases
    have hlooks : (∀ pending, w.greeter.journal .theme = some pending →
        pending.token ≠ request.token) → request.action = .rollback ∨ request.action = .commit →
        w'.greeter.file = w.greeter.file ∧
          Committing w.greeter.file uid journal.token w'.greeter := fun hother haction => by
      rw [looks_theme lib haction hother hsteps]
      exact ⟨rfl, hcommitting⟩
    have hother : request.token ≠ journal.token → ∀ pending,
        w.greeter.journal .theme = some pending → pending.token ≠ request.token :=
      fun hne pending hpending hsametoken =>
        hne (hsametoken.symm.trans (hcommitting.2.2 pending hpending).2.1)
    cases haction : request.action with
    | apply edits =>
      have happly : request.action.IsApply := by rw [haction]; trivial
      exact (hmay happly (h.apply hgreeter request hrequest happly)).elim
    | commit =>
      by_cases htoken : request.token = journal.token
      · rw [htoken, haction] at hsteps
        have hafter := (commit_runs hcommitting hsteps).1
        exact ⟨hafter.1, hafter⟩
      · exact hlooks (hother htoken) (.inr haction)
    | rollback =>
      exact hlooks (hother (h.rollback hgreeter request hrequest haction)) (.inl haction)
  refine ⟨fun hgreeter => ?_, fun hgreeter => ?_, fun hgreeter request hrequest happly => ?_,
    fun hgreeter request hrequest => h.rollback hgreeter request (hsame.late request hrequest),
    fun hgreeter => hsame.base ▸ (h.still hgreeter).late hrun⟩
  · rw [hsame.asked, hsame.base, (hkept hgreeter).1]
    exact h.edited hgreeter
  · rw [(hkept hgreeter).1]
    exact (hkept hgreeter).2
  · exact hsame.rolledBack ▸ h.apply hgreeter request (hsame.late request hrequest) happly

section Phases

variable {allowed : List ν} {tokens : List ℕ}

theorem Waiting.late (h : Waiting allowed tokens journal w) (hrun : LateRun uid OnTime w w') :
    Waiting allowed tokens journal w' :=
  have hsame := hrun.sameAccount
  { hsame.recorded h.toRecorded fun token htoken => hsame.fresh (h.fresh token htoken) with
    prepared := h.prepared
    notStarted := h.notStarted
    files := by rw [hsame.file, hsame.base, h.files]
    settings := by rw [hsame.settings, hsame.base, h.settings]
    unasked := h.unasked.late hrun }

theorem Written.late (h : Written uid allowed tokens journal w) (hrun : LateRun uid OnTime w w') :
    Written uid allowed tokens journal w' :=
  have hsame := hrun.sameAccount
  h.of_same hsame.toSameFiles (fun token htoken => hsame.fresh (h.fresh token htoken))
    (h.undecided.late hrun)

theorem Committed.late (h : Committed uid allowed tokens journal w) (hrun : LateRun uid OnTime w w') :
    Committed uid allowed tokens journal w' :=
  have hsame := hrun.sameAccount
  h.of_same hsame.toSameFiles (fun token htoken => hsame.fresh (h.fresh token htoken))
    (h.decided.late hrun)

theorem Ended.late (h : Ended tokens w) (hrun : LateRun uid OnTime w w') : Ended tokens w' := by
  have hsame := hrun.sameAccount
  have hstill := h.still.late hrun
  have hgreeter : w'.greeter.file = w.greeter.file := hstill.1.1
  refine ⟨hsame.journal.trans h.journal, hgreeter.symm ▸ hstill, ?_,
    fun token htoken => hsame.fresh (h.fresh token htoken)⟩
  rcases h.complete with hold | ⟨last, hlast, hnew⟩
  · left
    unfold AllOld
    rw [hsame.file, hsame.settings, hsame.base, hgreeter]
    exact hold
  · refine .inr ⟨last, hsame.last.trans hlast, ?_⟩
    obtain ⟨hfiles, hothers, hsettings, hedited, huntouched⟩ := hnew
    constructor
    · rwa [hsame.file]
    · rwa [hsame.file, hsame.base]
    · rwa [hsame.settings, hsame.base]
    · rwa [hsame.asked, hsame.base, hgreeter]
    · rwa [hsame.base, hgreeter]

/-- A late helper keeps the invariant. -/
theorem Consistent.late (h : Consistent uid allowed tokens w) (hrun : LateRun uid OnTime w w') :
    Consistent uid allowed tokens w' := by
  rcases h with h | ⟨journal, h | h | h⟩
  · exact .inl (h.late hrun)
  · exact .inr ⟨journal, .inl (h.late hrun)⟩
  · exact .inr ⟨journal, .inr (.inl (h.late hrun))⟩
  · exact .inr ⟨journal, .inr (.inr (h.late hrun))⟩

end Phases

end Preseed.Appearance
