import Preseed.Appearance.EngineRules

/-!
# Recovery and choices

Wherever `recover` and `apply_choice` are stopped the invariant holds, and where they return the
change has ended.
-/

namespace Preseed.Appearance

open Effects

variable {δ ν : Type} [DecidableEq δ] [DecidableEq ν] {lib : Library δ} {uid : ℕ} {allowed : List ν}
  {tokens : List ℕ} {P : Desk lib ν → Prop} {journal : Change ν}

theorem course_removeChange (hP : ∀ w, P w → Consistent uid allowed [] w ∧
    Ended tokens (w.record none)) :
    Course uid allowed P removeChange (fun _ => Ended tokens) (Consistent uid allowed []) := by
  refine course_step (fun w _ w' hw _ hdoes => ?_) (fun w e w' hw _ hdoes => ?_)
    (fun _ _ hw => hw.consistent) fun _ hw => hw
  · rcases hdoes with rfl | ⟨⟨e, he⟩, -⟩
    · exact (hP w hw).2
    · cases he
  · rcases hdoes with rfl | ⟨-, rfl⟩
    · exact (hP w hw).2.consistent
    · exact (hP _ hw).1

/-- The rule of a journal that is written: a phase begins, or it does not. -/
theorem course_putChange {Q : Desk lib ν → Prop}
    (hP : ∀ w, P w → Restorable w () (.writeJournal (some journal)) →
      Consistent uid allowed [] w ∧ Q (w.record (some journal)))
    (hQ : ∀ w, Q w → Consistent uid allowed [] w) :
    Course uid allowed P (putChange journal) (fun _ => Q) (Consistent uid allowed []) := by
  refine course_step (fun w _ w' hw hrestorable hdoes => ?_) (fun w e w' hw hrestorable hdoes => ?_)
    (fun _ _ hw => hQ _ hw) fun _ hw => hw
  · rcases hdoes with rfl | ⟨⟨e, he⟩, -⟩
    · exact (hP w hw hrestorable).2
    · cases he
  · rcases hdoes with rfl | ⟨-, rfl⟩
    · exact hQ _ (hP w hw hrestorable).2
    · exact (hP _ hw hrestorable).1

section Recover

/-- The end of a recovery. -/
theorem course_finishRecovery {failed : Bool} (hP : ∀ w, P w → Consistent uid allowed [] w)
    (hdone : failed = false → ∀ w, P w → Ended tokens (w.record none)) :
    Course uid allowed P (finishRecovery journal failed) (fun _ => Ended tokens)
      (Consistent uid allowed []) := by
  refine .bind (Q := fun _ => P) ?_ fun _ => .ite (fun _ => .raise hP) fun hnot => ?_
  · exact .ite (fun _ => course_same (fun _ _ _ h => h) hP) fun _ => .pure fun _ hw => hw
  · exact course_removeChange fun w hw => ⟨hP w hw, hdone (by simpa using hnot) w hw⟩

theorem course_recover_waiting : Course uid allowed (Waiting allowed tokens journal)
    (recoverChange allowed journal : EngineAct lib ν Bool) (fun _ => Ended tokens) (Consistent uid allowed []) := by
  refine .assume (fun _ hw => hw.notStarted) fun hstarted => ?_
  refine .bind (triple_validate allowed journal.toJournal fun _ hw => hw.consistent) fun _ => ?_
  refine .bind (Q := fun failed w => Waiting allowed tokens journal w ∧ failed = false)
    (.ite (fun h => ?_) fun _ => .pure fun _ hw => ⟨hw.1, rfl⟩) fun failed => ?_
  · cases hstarted.symm.trans h.2
  refine .assume (fun _ hw => hw.2) fun hfailed => ?_
  refine .bind (Q := fun _ => Waiting allowed tokens journal)
    (.ite (fun h => ?_) fun _ => .pure fun _ hw => hw.1) fun _ => ?_
  · cases hstarted.symm.trans h.2
  exact .bind (course_finishRecovery (fun _ hw => hw.consistent) fun _ _ hw => hw.ended) fun _ => .pure fun _ hw => hw

/-- What is known once the helper was asked to undo its side. -/
def Returned (uid : ℕ) (allowed : List ν) (tokens : List ℕ) (journal : Change ν) (failed : Bool)
    (w : Desk lib ν) : Prop :=
  Written uid allowed tokens journal w ∧ (failed = false → Still w.base.greeter w)

theorem course_recoverGreeter : Course uid allowed (Written uid allowed tokens journal)
    (recoverGreeter journal : EngineAct lib ν Bool) (Returned uid allowed tokens journal) (Consistent uid allowed []) := by
  refine .assume (p := journal.phase = .prepared ∧ journal.filesStarted = true)
    (fun _ hw => ⟨hw.prepared, hw.started⟩) fun hjournal => ?_
  simp only [recoverGreeter, hjournal.1, hjournal.2, and_true, Phase.action]
  refine .ite (fun hgreeter => ?_) fun hgreeter => .pure fun w hw => ⟨hw, fun _ => ?_⟩
  · refine .handle (S := Written uid allowed tokens journal)
      (.bind (course_rollback.before fun _ hw => ⟨hw, hgreeter⟩) fun _ =>
        Triple.pure fun _ hw => ⟨hw.1, fun _ => hw.2⟩) fun e =>
          Triple.ite (fun _ => .pure fun _ hw => ⟨hw, nofun⟩) fun _ =>
            Triple.raise fun _ hw => hw.consistent
  · exact hw.undecided.still (by simpa using hgreeter)

theorem course_recoverLocal (failed : Bool) :
    Course uid allowed (Returned uid allowed tokens journal failed) (recoverLocal journal : EngineAct lib ν Unit)
      (fun _ w => (Returned uid allowed tokens journal failed w ∧
        Restored w.file journal.toJournal) ∧ w.settings = w.base.settings)
      (Consistent uid allowed []) := by
  refine .ite (fun _ => ?_) fun hnot => .assume (p := False)
    (fun w hw => hnot ⟨hw.1.prepared, hw.1.started⟩) fun h => h.elim
  refine .assume (fun _ hw => hw.1.nodup) fun hnodup => ?_
  refine .bind ((triple_rollback reading_home hnodup fun image himage => writing_home
    (X := fun w => failed = false → Still w.base.greeter w) (fun _ _ hx => hx) himage
      (.inl rfl)).mono (fun _ hw => hw) (fun _ _ hw => hw) fun _ hw => hw.1.consistent) fun _ => ?_
  cases hold : journal.oldSettings with
  | none => exact .pure fun w hw => ⟨hw, (hw.1.1.unchanged hold).2⟩
  | some old =>
    have hsome : journal.oldSettings ≠ none := by simp [hold]
    refine (course_setSettings (X := fun w => (failed = false → Still w.base.greeter w) ∧
      Restored w.file journal.toJournal) (fun _ _ hx => hx) hsome old).mono
        (fun w hw => ⟨hw.1.1, hw.1.2, hw.2⟩) (fun _ w hw => ?_) fun _ hw => hw.1.consistent
    obtain ⟨⟨hwritten, hstill, hrestored⟩, hsettings⟩ := hw
    exact ⟨⟨⟨hwritten, hstill⟩, hrestored⟩, hsettings.trans (hwritten.oldSettings old hold).1⟩

theorem course_recover_written : Course uid allowed (Written uid allowed tokens journal)
    (recoverChange allowed journal : EngineAct lib ν Bool) (fun _ => Ended tokens) (Consistent uid allowed []) := by
  refine .bind (triple_validate allowed journal.toJournal fun _ hw => hw.consistent) fun _ =>
    Triple.bind (course_recoverGreeter.before fun _ hw => hw.1) fun failed =>
      Triple.bind (course_recoverLocal failed) fun _ => ?_
  refine .bind (course_finishRecovery (fun _ hw => hw.1.1.1.consistent) fun hfailed w hw => ?_) fun _ => .pure fun _ hw => hw
  exact hw.1.1.1.ended (hw.1.1.2 hfailed) hw.1.2 hw.2

/-- What is known once the helper was asked to finish its side. -/
def Finishing (uid : ℕ) (allowed : List ν) (tokens : List ℕ) (journal : Change ν) (failed : Bool)
    (w : Desk lib ν) : Prop :=
  Committed uid allowed tokens journal w ∧ (failed = false → Still w.greeter.file w)

theorem course_recover_committed : Course uid allowed (Committed uid allowed tokens journal)
    (recoverChange allowed journal : EngineAct lib ν Bool) (fun _ => Ended tokens) (Consistent uid allowed []) := by
  refine .assume (p := journal.phase = .committed ∧ journal.filesStarted = true)
    (fun _ hw => ⟨hw.committed, hw.started⟩) fun hjournal => ?_
  refine .bind (triple_validate allowed journal.toJournal fun _ hw => hw.consistent) fun _ => ?_
  refine .bind (Q := Finishing uid allowed tokens journal) ?_ fun failed => ?_
  · simp only [recoverGreeter, hjournal.1, hjournal.2, and_true, Phase.action]
    refine .ite (fun hgreeter => ?_) fun hgreeter =>
      Triple.pure fun w hw => ⟨hw.1, fun _ => ?_⟩
    · exact .handle (S := Committed uid allowed tokens journal)
        (.bind (course_commit.before fun _ hw => ⟨hw.1, hgreeter⟩) fun _ =>
          Triple.pure fun _ hw => ⟨hw.1, fun _ => hw.2⟩) fun e =>
            Triple.ite (fun _ => .pure fun _ hw => ⟨hw, nofun⟩) fun _ =>
              Triple.raise fun _ hw => hw.consistent
    · exact (hw.1.decided.still (by simpa using hgreeter)).self
  · refine .bind (Q := fun _ => Finishing uid allowed tokens journal failed)
      (.ite (fun h => ?_) fun _ => .pure fun _ hw => hw) fun _ => ?_
    · cases hjournal.1.symm.trans h.1
    · exact .bind (course_finishRecovery (fun _ hw => hw.1.consistent) fun hfailed w hw => hw.1.ended (hw.2 hfailed)) fun _ =>
          Triple.pure fun _ hw => hw

omit [DecidableEq δ] [DecidableEq ν] in
/-- The change that is read is in one of its phases. -/
theorem phases_of_read {w : Desk lib ν} (h : Consistent uid allowed tokens w ∧
    (some journal = none → w.journal = none) ∧ ∀ other, some journal = some other →
      ∃ stored, w.journal = some stored ∧ other.Same stored) :
    Waiting allowed tokens journal w ∨ Written uid allowed tokens journal w ∨
      Committed uid allowed tokens journal w := by
  obtain ⟨hconsistent, -, hsome⟩ := h
  obtain ⟨stored, hstored, hsame⟩ := hsome journal rfl
  rcases hconsistent with hended | ⟨journal', h | h | h⟩
  · cases hended.journal.symm.trans hstored
  · exact .inl (h.same hstored hsame)
  · exact .inr (.inl (h.same hstored hsame))
  · exact .inr (.inr (h.same hstored hsame))

/-- The rule of `recover`. -/
theorem course_recover : Course uid allowed (Consistent uid allowed tokens)
    (recover allowed : EngineAct lib ν Bool) (fun _ => Ended tokens) (Consistent uid allowed []) := by
  refine .bind (course_readJournal fun _ hw => hw.forget) fun pending => ?_
  cases pending with
  | none =>
    refine .pure fun w hw => ?_
    obtain ⟨hended | ⟨journal, h⟩, hnone, -⟩ := hw
    · exact hended
    · have hstored : w.journal ≠ none := by
        rcases h with h | h | h
        · obtain ⟨stored, hstored, -⟩ := h.stored
          simp [hstored]
        · obtain ⟨stored, hstored, -⟩ := h.stored
          simp [hstored]
        · obtain ⟨stored, hstored, -⟩ := h.stored
          simp [hstored]
      exact (hstored (hnone rfl)).elim
  | some journal =>
    exact (course_recover_waiting.or (course_recover_written.or course_recover_committed)).before
      fun _ hw => phases_of_read hw

end Recover

end Preseed.Appearance
