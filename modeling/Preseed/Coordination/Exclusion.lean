import Preseed.Coordination.Coordinator

/-!
# The exclusion of Tailscale

From the return of `enter_mullvad` until the active marker is removed, the Tailscale
unit does not get past its start condition.
-/

namespace Preseed.Coordination

open System

/-! ## Runs -/

/-- Any number of events. -/
inductive Run : System → System → Prop
  | refl (s : System) : Run s s
  | step {s t u : System} (run : Run s t) (event : Event) (h : t.step event = some u) : Run s u

/-- A state of a run in which the unit is running or not when no process has been started. -/
def Reachable (s : System) : Prop :=
  ∃ available unit, (available = false → unit.down = true) ∧
    (∀ p, unit ≠ .condition p) ∧ Run (.initial available unit) s

section

variable (s : System)
include s

@[simp] theorem at_pc (p q : ℕ) (pc : Pc) :
    (s.at p pc).pc q = if q = p then pc else s.pc q := by
  simp [System.at, Function.update_apply]

@[simp] theorem at_lock (p : ℕ) (pc : Pc) : (s.at p pc).lock = s.lock := rfl

@[simp] theorem at_mullvadActive (p : ℕ) (pc : Pc) :
    (s.at p pc).mullvadActive = s.mullvadActive := rfl

@[simp] theorem at_restoreTailscale (p : ℕ) (pc : Pc) :
    (s.at p pc).restoreTailscale = s.restoreTailscale := rfl

@[simp] theorem at_available (p : ℕ) (pc : Pc) :
    (s.at p pc).available = s.available := rfl

@[simp] theorem at_unit (p : ℕ) (pc : Pc) : (s.at p pc).unit = s.unit := rfl

@[simp] theorem at_removals (p : ℕ) (pc : Pc) :
    (s.at p pc).removals = s.removals := rfl

@[simp] theorem at_owed (p : ℕ) (pc : Pc) : (s.at p pc).owed = s.owed := rfl

@[simp] theorem at_dropped (p : ℕ) (pc : Pc) : (s.at p pc).dropped = s.dropped := rfl

end

/-! ## What a step does -/

/-- A process is neither in nor after a section whose effect matters to others. -/
def Pc.plain : Pc → Bool
  | probing | inspecting | stopping | verifying | finishing _ => false
  | finished .entered | finished .allowed => false
  | _ => true

/-- Before the failure path of `enter_mullvad` has removed the marker. -/
def Pc.entering : Pc → Bool
  | enter | probing | inspecting | stopping | verifying | failing _ => true
  | _ => false

/-- The steps of a process. -/
inductive Effect (s : System) (p : ℕ) : System → Prop
  | enter (hpc : s.pc p = .enter) (hlock : s.lock = none) :
      Effect s p { s.at p .probing with lock := some p, mullvadActive := true }
  | inspect (hpc : s.pc p = .probing) (h : s.available = true) : Effect s p (s.at p .inspecting)
  | record (hpc : s.pc p = .inspecting) (h : s.unit.down = false) :
      Effect s p { s.at p .stopping with restoreTailscale := true }
  | stop (hpc : s.pc p = .stopping) (unit : UnitState) (h : unit.down = true) :
      Effect s p ((s.stopped unit).at p .verifying)
  | absent (hpc : s.pc p = .probing) (h : s.available = false) :
      Effect s p { s.at p (.finished .entered) with lock := none, restoreTailscale := false }
  | idle (hpc : s.pc p = .inspecting) (h : s.unit.down = true) :
      Effect s p { (s.at p (.finished .entered)).dropRestore with lock := none }
  | verify (hpc : s.pc p = .verifying) (h : s.unit.down = true) :
      Effect s p { s.at p (.finished .entered) with lock := none }
  | fail (hpc : (s.pc p).holdsLock = true) (restoreAfterFailure : Bool) :
      Effect s p (s.fail p restoreAfterFailure)
  | stopFails (hpc : s.pc p = .stopping) (unit : UnitState)
      (h : unit.down = true ∨ (unit = .deactivating ∧ s.unit.down = false)) :
      Effect s p ((s.stopped unit).fail p true)
  | withdraw (hpc : s.pc p = .failing true) (hlock : s.lock = none) :
      Effect s p (s.removeActive.at p (.recorded false))
  | withdrawDrop (hpc : s.pc p = .failing false) (hlock : s.lock = none) :
      Effect s p (s.removeActive.dropRestore.at p (.finished .withdrawn))
  | withdrawLate (hpc : s.pc p = .failing false) (hlock : s.lock = none) :
      Effect s p (s.removeActive.at p (.finished .withdrawn))
  | leave (hpc : s.pc p = .leave) (hlock : s.lock = none) :
      Effect s p (s.removeActive.at p (.recorded true))
  | confirm (leaving : Bool) (hpc : s.pc p = .confirming leaving) (h : s.unit.up = true) :
      Effect s p (s.at p (.finishing leaving))
  | finish (leaving : Bool) (hpc : s.pc p = .finishing leaving) (hlock : s.lock = none)
      (h : s.mullvadActive = false) :
      Effect s p { s.at p (restored leaving) with restoreTailscale := false }
  | defer (hpc : s.pc p = .condition) (hlock : s.lock = none) (h : s.mullvadActive = true) :
      Effect s p { s.at p (.finished .deferred) with
        restoreTailscale := true
        owed := s.owed || decide (s.unit = .condition p) }
  | allow (hpc : s.pc p = .condition) (hlock : s.lock = none) (h : s.mullvadActive = false) :
      Effect s p (s.at p (.finished .allowed))
  | other (pc : Pc) (hentering : (s.pc p).entering = true →
      pc = .failing false ∨ pc = .finished .notWithdrawn) (h : pc.plain = true) :
      Effect s p (s.at p pc)

@[simp] theorem restored_plain (leaving : Bool) : (restored leaving).plain = true := by
  cases leaving <;> rfl

@[simp] theorem notRestored_plain (leaving : Bool) : (notRestored leaving).plain = true := by
  cases leaving <;> rfl

variable {t s : System} {p : ℕ}

/-- A step of a process is one of these. -/
theorem run_effect {answer : Answer} (h : s.run p answer = some t) :
    Effect s p t := by
  have hother : ∀ pc : Pc, pc.plain = true → ((s.pc p).entering = true →
      pc = .failing false ∨ pc = .finished .notWithdrawn) → s.at p pc = t → Effect s p t := by
    intro pc hplain hentering heq
    subst heq
    exact .other pc hentering hplain
  unfold run at h
  cases hpc : s.pc p with
  | unused => simp [hpc] at h
  | finished outcome => simp [hpc] at h
  | enter =>
    simp only [hpc] at h
    split at h
    · split at h
      · cases h
        exact .enter hpc ‹_›
      · cases h
    · exact hother _ rfl (fun _ => .inl rfl) (Option.some.inj h)
  | probing =>
    simp only [hpc] at h
    split at h
    · split at h
      · cases h
        exact .inspect hpc ‹_›
      · cases h
        exact .absent hpc (by simpa using ‹¬s.available = true›)
    · cases h
      exact .fail (by rw [hpc]; rfl) false
  | inspecting =>
    simp only [hpc] at h
    split at h
    · split at h
      · cases h
        exact .idle hpc ‹_›
      · cases h
        exact .record hpc (by simpa using ‹¬s.unit.down = true›)
    · cases h
      exact .fail (by rw [hpc]; rfl) false
    · split at h
      · cases h
        exact .fail (by rw [hpc]; rfl) false
      · cases h
        exact .fail (by rw [hpc]; rfl) true
  | stopping =>
    simp only [hpc] at h
    split at h
    · cases h
      exact .stop hpc .inactive rfl
    · rename_i unit
      split at h
      · cases h
        exact .stop hpc unit ‹_›
      · split at h
        · rename_i hdeactivating
          cases h
          exact .stopFails hpc unit (.inr hdeactivating)
        · cases h
    · cases h
      exact .fail (by rw [hpc]; rfl) true
    · cases h
      exact .stopFails hpc .inactive (.inl rfl)
  | verifying =>
    simp only [hpc] at h
    split at h
    · split at h
      · cases h
        exact .verify hpc ‹_›
      · cases h
        exact .fail (by rw [hpc]; rfl) true
    · cases h
      exact .fail (by rw [hpc]; rfl) true
  | failing restoreAfterFailure =>
    simp only [hpc] at h
    split at h
    · exact hother _ rfl (fun _ => .inr rfl) (Option.some.inj h)
    · split at h
      · cases restoreAfterFailure with
        | true =>
          cases h
          exact .withdraw hpc ‹_›
        | false =>
          cases h
          exact .withdrawDrop hpc ‹_›
      · cases h
    · split at h
      · rename_i hlate
        cases h
        rw [hlate.2] at hpc
        exact .withdrawLate hpc hlate.1
      · cases h
    · cases h
  | leave =>
    simp only [hpc] at h
    split at h
    · split at h
      · cases h
        exact .leave hpc ‹_›
      · cases h
    · exact hother _ rfl (by simp [hpc, Pc.entering]) (Option.some.inj h)
  | recorded leaving =>
    simp only [hpc] at h
    split at h
    · split at h
      · refine hother _ ?_ (by simp [hpc, Pc.entering]) (Option.some.inj h)
        split
        · rfl
        · exact restored_plain leaving
      · cases h
    · exact hother _ (notRestored_plain leaving) (by simp [hpc, Pc.entering]) (Option.some.inj h)
  | checking leaving =>
    simp only [hpc] at h
    split at h
    · refine hother _ ?_ (by simp [hpc, Pc.entering]) (Option.some.inj h)
      split
      · rfl
      · exact notRestored_plain leaving
    · exact hother _ (notRestored_plain leaving) (by simp [hpc, Pc.entering]) (Option.some.inj h)
  | starting leaving =>
    simp only [hpc] at h
    split at h
    · exact hother _ rfl (by simp [hpc, Pc.entering]) (Option.some.inj h)
    · exact hother _ (notRestored_plain leaving) (by simp [hpc, Pc.entering]) (Option.some.inj h)
  | confirming leaving =>
    simp only [hpc] at h
    split at h
    · by_cases hup : s.unit.up = true
      · rw [if_pos hup] at h
        cases h
        exact .confirm leaving hpc hup
      · rw [if_neg hup] at h
        exact hother _ (notRestored_plain leaving) (by simp [hpc, Pc.entering]) (Option.some.inj h)
    · exact hother _ (notRestored_plain leaving) (by simp [hpc, Pc.entering]) (Option.some.inj h)
  | finishing leaving =>
    simp only [hpc] at h
    split at h
    · split at h
      · split at h
        · exact hother _ (restored_plain leaving) (by simp [hpc, Pc.entering]) (Option.some.inj h)
        · cases h
          exact .finish leaving hpc ‹_› (by simpa using ‹¬s.mullvadActive = true›)
      · cases h
    · exact hother _ (notRestored_plain leaving) (by simp [hpc, Pc.entering]) (Option.some.inj h)
  | condition =>
    simp only [hpc] at h
    split at h
    · split at h
      · split at h
        · cases h
          exact .defer hpc ‹_› ‹_›
        · cases h
          exact .allow hpc ‹_› (by simpa using ‹¬s.mullvadActive = true›)
      · cases h
    · exact hother _ rfl (by simp [hpc, Pc.entering]) (Option.some.inj h)

/-! ## The lock -/

/-- A process between two steps of its locked section owns the lock, and the active
marker is there; a unit that is not available is stopped. -/
structure Locked (s : System) : Prop where
  available : s.available = false → s.unit.down = true
  held : ∀ p, (s.pc p).holdsLock = true → s.lock = some p
  marked : ∀ p, (s.pc p).holdsLock = true → s.mullvadActive = true

@[simp] theorem plain_holdsLock {pc : Pc} (h : pc.plain = true) : pc.holdsLock = false := by
  cases pc <;> first | rfl | cases h

/-- A step of a process that owns the lock, or that leaves it and the marker alone. -/
theorem Locked.update (h : Locked s) (p : ℕ) (havailable : t.available = false → t.unit.down = true)
    (hpc : ∀ q, q ≠ p → t.pc q = s.pc q) (hlock : s.lock = none ∨ s.lock = some p ∨
      (t.lock = s.lock ∧ t.mullvadActive = s.mullvadActive))
    (hp : (t.pc p).holdsLock = true → t.lock = some p ∧ t.mullvadActive = true) : Locked t := by
  have hboth : ∀ q, (t.pc q).holdsLock = true → t.lock = some q ∧ t.mullvadActive = true := by
    intro q hq
    by_cases hsame : q = p
    · subst hsame
      exact hp hq
    · rw [hpc q hsame] at hq
      have hown := h.held q hq
      rcases hlock with hnone | hother | ⟨hkept, hmarker⟩
      · rw [hnone] at hown
        cases hown
      · rw [hother] at hown
        exact absurd (Option.some.inj hown).symm hsame
      · exact ⟨hkept.trans hown, hmarker.trans (h.marked q hq)⟩
  exact ⟨havailable, fun q hq => (hboth q hq).1, fun q hq => (hboth q hq).2⟩

@[simp] theorem restored_holdsLock (leaving : Bool) : (restored leaving).holdsLock = false := rfl

theorem Locked.effect (h : Locked s) (heffect : Effect s p t) :
    Locked t := by
  have hown : ∀ pc, s.pc p = pc → pc.holdsLock = true →
      s.lock = some p ∧ s.mullvadActive = true := by
    rintro _ rfl hholds
    exact ⟨h.held p hholds, h.marked p hholds⟩
  cases heffect with
  | enter _ hlock =>
    exact h.update p h.available (fun q hq => by simp [hq]) (.inl hlock) fun _ => ⟨rfl, rfl⟩
  | inspect hpc _ =>
    exact h.update p h.available (fun q hq => by simp [hq]) (.inr (.inr ⟨rfl, rfl⟩))
      fun _ => hown _ hpc rfl
  | record hpc _ =>
    exact h.update p h.available (fun q hq => by simp [hq]) (.inr (.inr ⟨rfl, rfl⟩))
      fun _ => hown _ hpc rfl
  | stop hpc unit hdown =>
    exact h.update p (fun _ => hdown) (fun q hq => by simp [hq, stopped])
      (.inr (.inr ⟨rfl, rfl⟩)) fun _ => hown _ hpc rfl
  | absent hpc _ =>
    exact h.update p h.available (fun q hq => by simp [hq]) (.inr (.inl (hown _ hpc rfl).1))
      (by simp [Pc.holdsLock])
  | idle hpc _ =>
    exact h.update p h.available (fun q hq => by simp [hq, dropRestore])
      (.inr (.inl (hown _ hpc rfl).1)) (by simp [Pc.holdsLock, dropRestore])
  | verify hpc _ =>
    exact h.update p h.available (fun q hq => by simp [hq]) (.inr (.inl (hown _ hpc rfl).1))
      (by simp [Pc.holdsLock])
  | fail hpc _ =>
    exact h.update p h.available (fun q hq => by simp [hq, fail])
      (.inr (.inl (h.held p hpc))) (by simp [Pc.holdsLock, fail])
  | stopFails hpc unit hunit =>
    refine h.update p (fun hunavailable => ?_) (fun q hq => by simp [hq, fail, stopped])
      (.inr (.inl (hown _ hpc rfl).1)) (by simp [Pc.holdsLock, fail])
    rcases hunit with hdown | ⟨-, hrunning⟩
    · exact hdown
    · have hdown := h.available hunavailable
      rw [hrunning] at hdown
      cases hdown
  | withdraw _ hlock =>
    exact h.update p h.available (fun q hq => by simp [hq, removeActive]) (.inl hlock)
      (by simp [Pc.holdsLock])
  | withdrawDrop _ hlock =>
    exact h.update p h.available (fun q hq => by simp [hq, removeActive, dropRestore])
      (.inl hlock) (by simp [Pc.holdsLock])
  | withdrawLate _ hlock =>
    exact h.update p h.available (fun q hq => by simp [hq, removeActive]) (.inl hlock)
      (by simp [Pc.holdsLock])
  | leave _ hlock =>
    exact h.update p h.available (fun q hq => by simp [hq, removeActive]) (.inl hlock)
      (by simp [Pc.holdsLock])
  | confirm leaving _ _ =>
    exact h.update p h.available (fun q hq => by simp [hq]) (.inr (.inr ⟨rfl, rfl⟩))
      (by simp [Pc.holdsLock])
  | finish leaving _ hlock _ =>
    exact h.update p h.available (fun q hq => by simp [hq]) (.inl hlock) (by simp)
  | defer _ hlock _ =>
    exact h.update p h.available (fun q hq => by simp [hq]) (.inl hlock) (by simp [Pc.holdsLock])
  | allow _ hlock _ =>
    exact h.update p h.available (fun q hq => by simp [hq]) (.inl hlock) (by simp [Pc.holdsLock])
  | other pc _ hplain =>
    exact h.update p h.available (fun q hq => by simp [hq]) (.inr (.inr ⟨rfl, rfl⟩))
      (by simp [plain_holdsLock hplain])

@[simp] theorem entry_holdsLock (command : Command) : command.entry.holdsLock = false := by
  cases command <;> rfl

/-- A unit that is stopped and not available stays stopped. -/
theorem down_of_moves {unit next : UnitState} (h : unit.moves next = true)
    (hdown : unit.down = true) : next.down = true := by
  cases unit <;> cases hdown <;> cases next <;> first | rfl | cases h

variable {event : Event}

/-- What one event can do. -/
inductive Change (s : System) : Event → System → Prop
  | run (p : ℕ) (answer : Answer) {t : System} (heffect : Effect s p t) :
      Change s (.run p answer) t
  | spawn (p : ℕ) (command : Command) (hunused : s.pc p = .unused) :
      Change s (.spawn p command) (s.at p command.entry)
  | beginStart (p : ℕ) (hunused : s.pc p = .unused) (havailable : s.available = true) :
      Change s (.beginStart p) { s.at p .condition with unit := .condition p }
  | allowed (p : ℕ) (hunit : s.unit = .condition p) (hpc : s.pc p = .finished .allowed) :
      Change s .conditionEnds { s with unit := .starting }
  | refused (p : ℕ) (hunit : s.unit = .condition p) :
      Change s .conditionEnds { s with unit := .inactive }
  | unit (next : UnitState) (hmoves : s.unit.moves next = true) :
      Change s (.unit next) { s with
        unit := next
        owed := s.owed && decide (next ≠ .active)
        dropped := s.dropped && decide (next ≠ .active) }
  | load (available : Bool) (hdown : s.unit.down = true) :
      Change s (.load available) { s with
        available := available
        owed := s.owed && available
        dropped := s.dropped && available }
  | kill (p : ℕ) (hrunning : ∀ outcome, s.pc p ≠ .finished outcome) :
      Change s (.kill p) { s.at p (.finished .killed) with
        lock := if s.lock = some p then none else s.lock }

theorem change_of_step (hstep : s.step event = some t) : Change s event t := by
  cases event with
  | run p answer => exact .run p answer (run_effect hstep)
  | spawn p command =>
    simp only [step, Option.ite_none_right_eq_some, Option.some.injEq] at hstep
    obtain ⟨hunused, rfl⟩ := hstep
    exact .spawn p command hunused
  | beginStart p =>
    simp only [step, Option.ite_none_right_eq_some, Option.some.injEq] at hstep
    obtain ⟨⟨hunused, havailable, _⟩, rfl⟩ := hstep
    exact .beginStart p hunused havailable
  | conditionEnds =>
    simp only [step] at hstep
    split at hstep
    · rename_i p hunit
      split at hstep
      · cases hstep
        exact .allowed p hunit ‹_›
      · cases hstep
        exact .refused p hunit
      · cases hstep
    · cases hstep
  | unit next =>
    simp only [step, Option.ite_none_right_eq_some, Option.some.injEq] at hstep
    obtain ⟨hmoves, rfl⟩ := hstep
    exact .unit next hmoves
  | load available =>
    simp only [step, Option.ite_none_right_eq_some, Option.some.injEq] at hstep
    obtain ⟨hdown, rfl⟩ := hstep
    exact .load available hdown
  | kill p =>
    simp only [step] at hstep
    split at hstep
    · cases hstep
    · cases hstep
    · rename_i hrunning
      cases hstep
      exact .kill p hrunning

theorem Locked.step (h : Locked s) (hstep : s.step event = some t) : Locked t := by
  cases change_of_step hstep with
  | run p answer heffect => exact h.effect heffect
  | spawn p command hunused =>
    exact h.update p h.available (fun q hq => by simp [hq]) (.inr (.inr ⟨rfl, rfl⟩)) (by simp)
  | beginStart p hunused havailable =>
    exact h.update p (fun hnot => absurd havailable (by simpa using hnot))
      (fun q hq => by simp [hq]) (.inr (.inr ⟨rfl, rfl⟩)) (by simp [Pc.holdsLock])
  | allowed p hunit hpc =>
    refine ⟨fun hnot => ?_, h.held, h.marked⟩
    have hdown := h.available hnot
    rw [hunit] at hdown
    cases hdown
  | refused p hunit => exact ⟨fun _ => rfl, h.held, h.marked⟩
  | unit next hmoves => exact ⟨fun hnot => down_of_moves hmoves (h.available hnot), h.held, h.marked⟩
  | load available hdown => exact ⟨fun _ => hdown, h.held, h.marked⟩
  | kill p hrunning =>
    refine h.update p h.available (fun q hq => by simp [hq]) ?_ (by simp [Pc.holdsLock])
    by_cases hown : s.lock = some p
    · exact .inr (.inl hown)
    · exact .inr (.inr ⟨if_neg hown, rfl⟩)

theorem Reachable.locked (h : Reachable s) : Locked s := by
  obtain ⟨available, unit, hdown, -, hrun⟩ := h
  induction hrun with
  | refl => exact ⟨hdown, fun _ hp => (nomatch hp), fun _ hp => (nomatch hp)⟩
  | step _ event hstep ih => exact ih.step hstep

/-! ## The exclusion -/

/-- The active marker is there, and the unit is not past its condition. -/
structure Quiet (s : System) : Prop where
  marked : s.mullvadActive = true
  barred : s.unit.down = true ∨ s.unit = .deactivating ∨
    ∃ p, s.unit = .condition p ∧ s.pc p ≠ .finished .allowed

/-- Tailscale is neither active nor starting. -/
theorem Quiet.not_active (h : Quiet s) :
    s.unit.up = false ∧ s.unit ≠ .starting := by
  rcases h.barred with hdown | hdeactivating | ⟨p, hcondition, -⟩
  · cases hunit : s.unit <;> rw [hunit] at hdown <;> cases hdown <;> exact ⟨rfl, by simp⟩
  · rw [hdeactivating]
    exact ⟨rfl, by simp⟩
  · rw [hcondition]
    exact ⟨rfl, by simp⟩

/-- The unit stays barred when only a process that is not allowed moves. -/
theorem Quiet.update (h : Quiet s) (p : ℕ) (hmarked : t.mullvadActive = true)
    (hunit : t.unit = s.unit) (hpc : ∀ q, q ≠ p → t.pc q = s.pc q)
    (hp : t.pc p ≠ .finished .allowed) : Quiet t := by
  refine ⟨hmarked, ?_⟩
  rw [hunit]
  rcases h.barred with hdown | hdeactivating | ⟨q, hcondition, hq⟩
  · exact .inl hdown
  · exact .inr (.inl hdeactivating)
  · refine .inr (.inr ⟨q, hcondition, ?_⟩)
    by_cases hsame : q = p
    · rw [hsame]
      exact hp
    · rw [hpc q hsame]
      exact hq

theorem Quiet.effect (h : Quiet s) (heffect : Effect s p t)
    (hremovals : t.removals = s.removals) : Quiet t := by
  have hmarked := h.marked
  cases heffect with
  | enter _ _ => exact h.update p rfl rfl (fun q hq => by simp [hq]) (by simp)
  | inspect _ _ => exact h.update p hmarked rfl (fun q hq => by simp [hq]) (by simp)
  | record _ _ => exact h.update p hmarked rfl (fun q hq => by simp [hq]) (by simp)
  | stop _ unit hdown => exact ⟨hmarked, .inl hdown⟩
  | absent _ _ => exact h.update p hmarked rfl (fun q hq => by simp [hq]) (by simp)
  | idle _ _ =>
    exact h.update p hmarked rfl (fun q hq => by simp [hq, dropRestore])
      (by simp [dropRestore])
  | verify _ _ => exact h.update p hmarked rfl (fun q hq => by simp [hq]) (by simp)
  | fail _ _ =>
    exact h.update p hmarked rfl (fun q hq => by simp [hq, fail]) (by simp [fail])
  | stopFails _ unit hunit =>
    rcases hunit with hdown | ⟨rfl, -⟩
    · exact ⟨hmarked, .inl hdown⟩
    · exact ⟨hmarked, .inr (.inl rfl)⟩
  | withdraw _ _ => simp [removeActive] at hremovals
  | withdrawDrop _ _ => simp [removeActive, dropRestore] at hremovals
  | withdrawLate _ _ => simp [removeActive] at hremovals
  | leave _ _ => simp [removeActive] at hremovals
  | confirm _ _ _ => exact h.update p hmarked rfl (fun q hq => by simp [hq]) (by simp)
  | finish leaving _ _ hunmarked =>
    rw [hunmarked] at hmarked
    cases hmarked
  | defer _ _ _ => exact h.update p hmarked rfl (fun q hq => by simp [hq]) (by simp)
  | allow _ _ hunmarked =>
    rw [hunmarked] at hmarked
    cases hmarked
  | other pc _ hplain =>
    refine h.update p hmarked rfl (fun q hq => by simp [hq]) ?_
    simp only [at_pc, if_true]
    rintro rfl
    cases hplain

theorem Quiet.step (h : Quiet s) (hstep : s.step event = some t)
    (hremovals : t.removals = s.removals) : Quiet t := by
  cases change_of_step hstep with
  | run p answer heffect => exact h.effect heffect hremovals
  | spawn p command hunused =>
    exact h.update p h.marked rfl (fun q hq => by simp [hq]) (by cases command <;> simp [Command.entry])
  | beginStart p hunused havailable => exact ⟨h.marked, .inr (.inr ⟨p, rfl, by simp⟩)⟩
  | allowed p hunit hpc =>
    rcases h.barred with hdown | hdeactivating | ⟨q, hcondition, hq⟩
    · rw [hunit] at hdown
      cases hdown
    · rw [hunit] at hdeactivating
      cases hdeactivating
    · rw [hunit] at hcondition
      obtain rfl := UnitState.condition.inj hcondition
      exact absurd hpc hq
  | refused p hunit => exact ⟨h.marked, .inl rfl⟩
  | unit next hmoves =>
    refine ⟨h.marked, .inl ?_⟩
    rcases h.barred with hdown | hdeactivating | ⟨q, hcondition, hq⟩
    · exact down_of_moves hmoves hdown
    · rw [hdeactivating] at hmoves
      cases next <;> first | rfl | cases hmoves
    · rw [hcondition] at hmoves
      cases next <;> first | rfl | cases hmoves
  | load available hdown => exact ⟨h.marked, h.barred⟩
  | kill p hrunning => exact h.update p h.marked rfl (fun q hq => by simp [hq]) (by simp)

/-- Removals are counted. -/
theorem removals_le (hstep : s.step event = some t) :
    s.removals ≤ t.removals := by
  cases change_of_step hstep with
  | run p answer heffect =>
    cases heffect <;> first
      | exact Nat.le_refl _
      | exact Nat.le_succ _
  | _ => exact Nat.le_refl _

theorem Run.removals_le (h : Run s t) : s.removals ≤ t.removals := by
  induction h with
  | refl => exact Nat.le_refl _
  | step _ event hstep ih => exact Nat.le_trans ih (Coordination.removals_le hstep)

/-- Until the active marker is removed, the unit stays barred. -/
theorem Quiet.run (h : Quiet s) (hrun : Run s t)
    (hremovals : t.removals = s.removals) : Quiet t := by
  induction hrun with
  | refl => exact h
  | step run event hstep ih =>
    have hle := run.removals_le
    have hle' := removals_le hstep
    exact (ih (by omega)).step hstep (by omega)

/-- When `enter_mullvad` returns, the unit is barred. -/
theorem quiet_of_entered (hs : Locked s) (heffect : Effect s p t)
    (hentered : t.pc p = .finished .entered) : Quiet t := by
  cases heffect with
  | absent hpc hunavailable =>
    exact ⟨hs.marked p (by rw [hpc]; rfl), .inl (hs.available hunavailable)⟩
  | idle hpc hdown => exact ⟨hs.marked p (by rw [hpc]; rfl), .inl hdown⟩
  | verify hpc hdown => exact ⟨hs.marked p (by rw [hpc]; rfl), .inl hdown⟩
  | other pc _ hplain =>
    rw [at_pc, if_pos rfl] at hentered
    rw [hentered] at hplain
    cases hplain
  | finish leaving _ _ _ => cases leaving <;> simp [restored] at hentered
  | _ => simp [fail, dropRestore] at hentered

/-! ## A failing exclusion -/

/-- How `enter_mullvad` ends when it does not remove the active marker. -/
def ended : List Outcome := [.entered, .notWithdrawn, .killed]

/-- A step of a failing exclusion removes the marker, or stays before the removal, or ends
otherwise. -/
theorem entering_effect (heffect : Effect s p t)
    (hentering : (s.pc p).entering = true) : t.mullvadActive = false ∨
      (t.pc p).entering = true ∨ ∃ outcome, t.pc p = .finished outcome ∧ outcome ∈ ended := by
  cases heffect with
  | absent _ _ => exact .inr (.inr ⟨.entered, by simp, by decide⟩)
  | idle _ _ => exact .inr (.inr ⟨.entered, by simp [dropRestore], by decide⟩)
  | verify _ _ => exact .inr (.inr ⟨.entered, by simp, by decide⟩)
  | withdraw _ _ => exact .inl rfl
  | withdrawDrop _ _ => exact .inl rfl
  | withdrawLate _ _ => exact .inl rfl
  | leave _ _ => exact .inl rfl
  | finish leaving hpc _ h => exact .inl h
  | allow hpc _ h => exact .inl h
  | confirm leaving hpc _ =>
    rw [hpc] at hentering
    cases hentering
  | defer hpc _ _ =>
    rw [hpc] at hentering
    cases hentering
  | other pc h _ =>
    rcases h hentering with rfl | rfl
    · exact .inr (.inl (by simp [Pc.entering]))
    · exact .inr (.inr ⟨.notWithdrawn, by simp, by decide⟩)
  | _ => exact .inr (.inl (by simp [fail, Pc.entering]))

/-- Only its own steps and a kill move a process. -/
theorem pc_of_other (hstep : s.step event = some t)
    (hother : ∀ answer, event ≠ .run p answer) : t.pc p = s.pc p ∨ s.pc p = .unused ∨
      (t.pc p = .finished .killed ∧ ∀ outcome, s.pc p ≠ .finished outcome) := by
  cases change_of_step hstep with
  | run q answer heffect =>
    have hne : p ≠ q := fun heq => hother answer (by rw [heq])
    left
    cases heffect <;> simp [hne, fail, stopped, removeActive, dropRestore]
  | spawn q command hunused =>
    by_cases hne : p = q
    · exact .inr (.inl (hne ▸ hunused))
    · exact .inl (by simp [hne])
  | beginStart q hunused havailable =>
    by_cases hne : p = q
    · exact .inr (.inl (hne ▸ hunused))
    · exact .inl (by simp [hne])
  | kill q hrunning =>
    by_cases hne : p = q
    · subst hne
      exact .inr (.inr ⟨by simp, hrunning⟩)
    · exact .inl (by simp [hne])
  | _ => exact .inl rfl

theorem run_finished {outcome : Outcome} (h : s.pc p = .finished outcome)
    (answer : Answer) : s.run p answer = none := by
  unfold run
  rw [h]

/-- An exclusion that has ended otherwise has removed the marker on its way. -/
theorem Run.removed (hrun : Run s t) (hs : (s.pc p).entering = true) {outcome : Outcome}
    (ht : t.pc p = .finished outcome) :
    outcome ∈ ended ∨ ∃ u, Run s u ∧ Run u t ∧ u.mullvadActive = false := by
  have hprogress : (∃ u, Run s u ∧ Run u t ∧ u.mullvadActive = false) ∨
      (t.pc p).entering = true ∨ ∃ outcome, t.pc p = .finished outcome ∧ outcome ∈ ended := by
    clear ht
    induction hrun with
    | refl => exact .inr (.inl hs)
    | @step m t run event hstep ih =>
      rcases ih with ⟨u, hu, hm, hremoved⟩ | hentering | ⟨outcome, hfinished, hended⟩
      · exact .inl ⟨u, hu, hm.step event hstep, hremoved⟩
      · by_cases hown : ∃ answer, event = .run p answer
        · obtain ⟨answer, rfl⟩ := hown
          rcases entering_effect (run_effect hstep) hentering with hremoved | hrest
          · exact .inl ⟨t, run.step _ hstep, .refl t, hremoved⟩
          · exact .inr hrest
        · rcases pc_of_other hstep (p := p) (fun answer heq => hown ⟨answer, heq⟩) with
            hsame | hunused | ⟨hkilled, -⟩
          · exact .inr (.inl (by rw [hsame]; exact hentering))
          · rw [hunused] at hentering
            cases hentering
          · exact .inr (.inr ⟨.killed, hkilled, by decide⟩)
      · by_cases hown : ∃ answer, event = .run p answer
        · obtain ⟨answer, rfl⟩ := hown
          exact absurd hstep (by simp [System.step, run_finished hfinished])
        · rcases pc_of_other hstep (p := p) (fun answer heq => hown ⟨answer, heq⟩) with
            hsame | hunused | ⟨-, hrunning⟩
          · exact .inr (.inr ⟨outcome, by rw [hsame]; exact hfinished, hended⟩)
          · rw [hunused] at hfinished
            cases hfinished
          · exact absurd hfinished (hrunning outcome)
  rcases hprogress with h | hentering | ⟨outcome', hfinished, hended⟩
  · exact .inr h
  · rw [ht] at hentering
    cases hentering
  · rw [ht] at hfinished
    obtain rfl := Pc.finished.inj hfinished
    exact .inl hended

/-- Events one after another. -/
def System.steps (s : System) : List Event → Option System
  | [] => some s
  | event :: events => (s.step event).bind fun t => t.steps events

theorem run_of_steps (events : List Event) (h : s.steps events = some t) :
    Run s t := by
  suffices ∀ r, Run r s → Run r t from this s (.refl s)
  intro r hrun
  induction events generalizing s with
  | nil =>
    cases h
    exact hrun
  | cons event events ih =>
    obtain ⟨m, hm, hrest⟩ := Option.bind_eq_some_iff.mp h
    exact ih hrest (hrun.step event hm)

/-- Before `enter_mullvad` has verified that Tailscale stopped. -/
def verifying : System :=
  ((System.initial true .active).steps [.spawn 0 .mullvadStart, .run 0 .ok, .run 0 .ok,
    .run 0 .ok, .run 0 .ok]).getD (.initial true .active)

/-- Before a second `enter_mullvad`. -/
def reentering : System :=
  (verifying.steps [.run 0 .ok, .spawn 1 .mullvadStart]).getD verifying

end Preseed.Coordination
