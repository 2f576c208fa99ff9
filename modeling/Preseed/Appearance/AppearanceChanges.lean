import Preseed.Appearance.GreeterTransactions
import Preseed.Appearance.WorkingRecovery

/-!
# Appearance changes are all or nothing

Processes of an account follow each other, each stopped anywhere, with helpers that run late. From
every state that is reached a recovery completes, and what it leaves is all old or all new, unless
old settings were recorded that cannot be restored, or a helper applies what was rolled back.
-/

namespace Preseed.Appearance

open Effects

variable {δ ν : Type} [DecidableEq δ] [DecidableEq ν] {lib : Library δ}

/-- A process that holds `appearance.lock`. -/
inductive Process (lib : Library δ) (ν : Type) (allowed : List ν)
  | recover
  | applyChoice (choice : Choice lib ν allowed)

namespace Process

variable {allowed : List ν}

def run : Process lib ν allowed → EngineAct lib ν Unit
  | recover => do
    let _ ← Appearance.recover allowed
    pure ()
  | applyChoice choice => Appearance.applyChoice choice

/-- The token of a new change is new. -/
def Ready (w : Desk lib ν) : Process lib ν allowed → Prop
  | recover => True
  | applyChoice choice => Fresh w choice.token

end Process

/-- The account and its greeter after any number of processes, each stopped anywhere. The steps meet `condition`, and `may` says which late helpers run. -/
inductive Visits (uid : ℕ) (allowed : List ν) (may : Desk lib ν → Request lib → Prop)
    (condition : Guard (Engine lib ν) Unit (Desk lib ν)) : Desk lib ν → Prop
  | start {w : Desk lib ν} (journal : w.journal = none)
      (greeter : ∀ kind, w.greeter.journal kind = none) (late : w.late = [])
      (base : w.base = w.snapshot) : Visits uid allowed may condition w
  | late {w w' : Desk lib ν} (before : Visits uid allowed may condition w)
      (run : LateRun uid may w w') : Visits uid allowed may condition w'
  | run {w w' : Desk lib ν} {process : Process lib ν allowed}
      {p : Program (Engine lib ν) Unit (Except Fault Unit × Unit)}
      (before : Visits uid allowed may condition w) (ready : process.Ready w)
      (steps : Program.Steps ((desk uid may).restrict condition) w (process.run ()) w' p) :
      Visits uid allowed may condition w'.stopped

/-- A recovery can complete. -/
def Recovers (uid : ℕ) (allowed : List ν) (may : Desk lib ν → Request lib → Prop)
    (condition : Guard (Engine lib ν) Unit (Desk lib ν)) (w : Desk lib ν) : Prop :=
  ∃ w' recovered, Program.Steps ((desk uid may).restrict condition) w
    (recover allowed () : Program (Engine lib ν) Unit _) w' (.done (.ok recovered, ())) ∧
      w'.journal = none

variable {uid : ℕ} {allowed : List ν}

/-- The rule of a process. -/
theorem course_process (process : Process lib ν allowed) :
    Course uid allowed (fun w => Consistent uid allowed [] w ∧ process.Ready w) process.run
      (fun _ => Ended []) (Consistent uid allowed []) := by
  cases process with
  | recover =>
    exact .bind (course_recover.before fun _ hw => hw.1) fun _ => .pure fun _ hw => hw
  | applyChoice choice =>
    refine (course_applyChoice choice).before fun w hw => hw.1.remember fun token htoken => ?_
    obtain rfl := List.mem_singleton.1 htoken
    exact hw.2

omit [DecidableEq δ] [DecidableEq ν] in
/-- The invariant does not need what a stopped process knew. -/
theorem Consistent.stopped {w : Desk lib ν} (h : Consistent uid allowed [] w) :
    Consistent uid allowed [] w.stopped := by
  have hsame : SameFiles w w.stopped := ⟨rfl, rfl, rfl, rfl, rfl⟩
  have hkept : ∀ token, token ∈ w.stopped.rolledBack → token ∈ w.rolledBack := by
    intro token htoken
    change token ∈ w.remembered at htoken
    unfold Desk.remembered at htoken
    cases hjournal : w.journal with
    | none => simpa [hjournal] using htoken
    | some journal =>
      simp only [hjournal] at htoken
      split at htoken
      · exact (List.mem_filter.1 htoken).1
      · exact htoken
  -- only the token of the pending change is forgotten
  have hother : ∀ stored, w.journal = some stored → ∀ token ∈ w.rolledBack,
      token ≠ stored.token ∨ stored.phase = .committed ∨ stored.greeter = false →
        token ∈ w.stopped.rolledBack := by
    intro stored hstored token htoken hwhy
    simp only [Desk.stopped, Desk.remembered, hstored]
    split
    case isTrue hpending =>
      refine List.mem_filter.2 ⟨htoken, ?_⟩
      rcases hwhy with hne | hphase | hgreeter
      · simpa using hne
      · cases hphase.symm.trans hpending.1
      · cases hgreeter.symm.trans hpending.2
    case isFalse => exact htoken
  have hsettled : w.remembered = w.rolledBack → w.stopped = w := by
    intro hsame
    rw [Desk.stopped, hsame]
  rcases h with h | ⟨journal, h | h | h⟩
  · rw [hsettled (by simp [Desk.remembered, h.journal])]
    exact .inl h
  · obtain ⟨stored, hstored, -, hjournal⟩ := h.stored
    have htoken : journal.token = stored.token := by rw [hjournal.1]
    refine .inr ⟨journal, .inl { hsame.recorded h.toRecorded (by simp) with
      prepared := h.prepared
      notStarted := h.notStarted
      files := h.files
      settings := h.settings
      unasked := ⟨⟨h.unasked.1.1, fun request hrequest happly => ?_⟩,
        fun hmem => h.unasked.2.1 (hkept _ hmem), h.unasked.2.2⟩ }⟩
    exact hother stored hstored _ (h.unasked.1.2 request hrequest happly)
      (.inl (htoken ▸ h.unasked.2.2 request hrequest))
  · obtain ⟨stored, hstored, -, hjournal⟩ := h.stored
    have htoken : journal.token = stored.token := by rw [hjournal.1]
    have hgreeter : journal.greeter = stored.greeter := by rw [hjournal.1]
    refine .inr ⟨journal, .inr (.inl (h.of_same hsame (by simp) ⟨h.undecided.undoable,
      fun hyes request hrequest happly => ?_, h.undecided.commit, fun hno =>
        ⟨(h.undecided.still hno).1, fun request hrequest happly => ?_⟩⟩))⟩
    · by_cases hown : request.token = journal.token
      · exact .inr hown
      · exact .inl (hother stored hstored _ ((h.undecided.apply hyes request hrequest happly).resolve_right
          hown) (.inl (htoken ▸ hown)))
    · exact hother stored hstored _ ((h.undecided.still hno).2 request hrequest happly)
        (.inr (.inr (hgreeter ▸ hno)))
  · obtain ⟨stored, hstored, -, hjournal⟩ := h.stored
    have hphase : stored.phase = .committed := by
      have hcommitted := h.committed
      rw [hjournal.1] at hcommitted
      exact hcommitted
    rw [hsettled (by simp [Desk.remembered, hstored, hphase])]
    exact .inr ⟨journal, .inr (.inr h)⟩

/-- The invariant holds wherever a process is stopped. -/
theorem consistent_visits {w : Desk lib ν} (h : Visits uid allowed OnTime Restorable w) :
    Consistent uid allowed [] w := by
  induction h with
  | @start w journal greeter late base =>
    refine .inl ⟨journal, ⟨⟨rfl, greeter⟩, by simp [late]⟩, .inl ?_, by simp⟩
    rw [AllOld, base]
    exact ⟨rfl, rfl, rfl⟩
  | late before run ih => exact ih.late run
  | @run w w' process p before ready steps ih =>
    have hsafe := course_process process () w ⟨ih, ready⟩
    exact (hsafe.invariant (fun w s op answer w' hguard hstep hw => hguard hw answer w' hstep) steps
      ih).stopped

/-- From a consistent state a recovery can complete. -/
theorem Consistent.recovers {w : Desk lib ν} (h : Consistent uid allowed [] w) :
    Recovers uid allowed OnTime Restorable w := by
  obtain ⟨⟨outcome, _⟩, w', hrun, hpost⟩ := (returns_recover () w h).terminates
  have hrun' := hrun.mono fun _ _ _ _ _ hr => hr.1
  cases outcome with
  | error e => exact hpost.elim
  | ok recovered => exact ⟨w', recovered, hrun', ((course_recover () w h).result hrun').journal⟩

section Stuck

variable {may : Desk lib ν → Request lib → Prop}
  {condition : Guard (Engine lib ν) Unit (Desk lib ν)} {P : Desk lib ν → Prop}

/-- Settings that do not match the pattern are not restored. -/
theorem stuck_setSettings {values : Settings} (h : ¬values.Accepted) :
    Triple ((desk uid may).restrict condition) (fun _ _ _ => True) P
      (setSettings values : EngineAct lib ν Unit) (fun _ _ => False) fun _ => True := by
  have hone : ∀ (P : Desk lib ν → Prop) (key : Key) (value : Bytes),
      Triple ((desk uid may).restrict condition) (fun _ _ _ => True) P
        (setSetting key value : EngineAct lib ν Unit)
        (fun _ _ => settingMatches value = true) fun _ => True := fun P key value =>
    Triple.ite (fun hmatches => (Triple.always _).mono (fun _ h => h) (fun _ _ _ => hmatches)
      fun _ h => h) fun _ => .raise fun _ _ => trivial
  refine .bind (hone P _ _) fun _ => .assume (fun _ hw => hw) fun hcolor =>
    Triple.bind (hone _ _ _) fun _ => .assume (fun _ hw => hw) fun htheme => ?_
  exact (h ⟨hcolor, htheme⟩).elim

/-- A change that started, and whose old settings do not match the pattern, is never recovered. -/
theorem stuck_recover {w : Desk lib ν} {journal : Change ν} (hjournal : w.journal = some journal)
    (hprepared : journal.phase = .prepared) (hstarted : journal.filesStarted = true)
    {old : Settings} (hold : journal.oldSettings = some old) (hno : ¬old.Accepted) :
    ¬Recovers uid allowed may condition w := by
  have hstuck : Triple ((desk uid may).restrict condition) (fun _ _ _ => True)
      (fun w => w.journal = some journal) (recover allowed : EngineAct lib ν Bool)
      (fun _ _ => False) fun _ => True := by
    refine .bind (Q := fun (pending : Option (Change ν)) _ => ∃ other, pending = some other ∧
      other.Same journal) (fun s w hw => ?_) fun pending => ?_
    · refine ⟨trivial, fun answer w' hstep => ?_⟩
      obtain ⟨-, rfl, hnone, hsome⟩ := hstep
      cases answer with
      | error e => exact trivial
      | ok pending =>
        cases pending with
        | none => cases (hnone rfl).symm.trans hw
        | some other =>
          obtain ⟨stored, hstored, hsame⟩ := hsome other rfl
          obtain rfl : stored = journal := Option.some.inj (hstored.symm.trans hw)
          exact ⟨other, rfl, hsame⟩
    · refine .assume (fun _ hw => hw) fun ⟨other, hpending, hsame⟩ => ?_
      subst hpending
      have hlocal : (recoverLocal other : EngineAct lib ν Unit) =
          (rollback home other.toJournal >>= fun _ => setSettings old) := by
        rw [recoverLocal, hsame.1]
        simp [hprepared, hstarted, hold]
      refine .bind (.always _) fun _ => .bind (.always _) fun failed => ?_
      rw [hlocal]
      exact .bind (.bind (.always _) fun _ => stuck_setSettings hno) fun _ =>
        Triple.assume (fun _ hw => hw) fun h => h.elim
  rintro ⟨w', recovered, hrun, -⟩
  exact Program.Safe.result (hstuck () w hjournal) hrun

end Stuck

section Fixture

/-- How a step is answered when helpers time out. -/
def Desk.answer (w : Desk lib ν) (_ : Unit) :
    (op : EngineStep lib ν) → (Engine lib ν).Res op × Desk lib ν
  | .read name limit =>
    (if size (w.file name) ≤ limit then .ok (w.file name) else .error .valueError, w)
  | .write name data => (.ok (), { w with file := Function.update w.file name data })
  | .readJournal => (.ok w.journal, w)
  | .writeJournal journal => (.ok (), w.record journal)
  | .getSettings => (.ok w.settings, w)
  | .setSetting key value => (.ok (), { w with settings := w.settings.set key value })
  | .dockActive => (.ok false, w)
  | .dockStop | .dockStart | .cacheIcons => (.ok (), w)
  | .privileged token action => (.error .subprocessError,
      { w.ask action with late := w.late ++ [⟨token, action⟩] })

theorem desk_answer {may : Desk lib ν → Request lib → Prop} (w : Desk lib ν) (s : Unit)
    (op : EngineStep lib ν) : desk uid may w s op (w.answer s op).1 (w.answer s op).2 := by
  cases op with
  | read name limit =>
    refine ⟨rfl, fun data hdata => ?_⟩
    simp only [Desk.answer] at hdata
    split at hdata
    · cases hdata
      exact ⟨rfl, ‹_›⟩
    · cases hdata
  | write name data => exact .inl rfl
  | readJournal =>
    exact ⟨rfl, fun hnone => Except.ok.inj hnone,
      fun journal hsome => ⟨journal, Except.ok.inj hsome, rfl, .refl _⟩⟩
  | writeJournal journal => exact .inl rfl
  | getSettings =>
    refine ⟨rfl, fun settings hsettings => ?_⟩
    cases hsettings
    rfl
  | setSetting key value => exact .inl rfl
  | dockActive | dockStop | dockStart | cacheIcons => exact rfl
  | privileged token action => exact ⟨w, .refl, .inr rfl⟩

/-- A light desktop with one file, whose theme has this name. -/
def lightDesk (gtkTheme : Bytes) : Desk fixture Unit where
  file _ := none
  journal := none
  settings := ⟨ascii "'prefer-light'", gtkTheme⟩
  greeter := ⟨fun _ => none, fun _ => none⟩
  late := []
  rolledBack := []
  base := ⟨fun _ => none, ⟨ascii "'prefer-light'", gtkTheme⟩, fun _ => none⟩
  last := none
  asked := none

/-- The choice of a dark theme. -/
def darkChoice : Choice fixture Unit [()] where
  token := 1
  greeter := none
  dock := false
  settings := some ⟨ascii "'prefer-dark'", ascii "'Adwaita-dark'"⟩
  icon := false
  files := []
  dockFiles := []
  config := ((), [10])
  files_allowed := by simp
  dock_allowed := by simp
  config_allowed := by simp

/-- A step does not start a journal whose settings cannot be restored. -/
def restores (_ : Desk lib ν) (_ : Unit) : EngineStep lib ν → Bool
  | .writeJournal (some journal) => !journal.filesStarted || journal.oldSettings.all (decide ·.Accepted)
  | _ => true

/-- The dark theme is chosen, and the process is killed after five steps: its journal is started. -/
def startedDesk (gtkTheme : Bytes) : Desk fixture Unit :=
  (Program.runFor Desk.answer 5 (lightDesk gtkTheme) (applyChoice darkChoice ())).1

theorem visits_started {may : Desk fixture Unit → Request fixture → Prop}
    {condition : Guard (Engine fixture Unit) Unit (Desk fixture Unit)}
    (check : Desk fixture Unit → Unit → EngineStep fixture Unit → Bool)
    (hcondition : ∀ w s op, check w s op = true → condition w s op) {gtkTheme : Bytes}
    (hcheck : Program.checkedFor Desk.answer check 5 (lightDesk gtkTheme)
      (applyChoice darkChoice ()) = true) :
    Visits 1000 [()] may condition (startedDesk gtkTheme).stopped := by
  have hready : (Process.applyChoice darkChoice).Ready (lightDesk gtkTheme) :=
    ⟨by simp [lightDesk], by simp [lightDesk], by simp [lightDesk]⟩
  exact .run (.start rfl (fun _ => rfl) rfl rfl) hready (Program.Steps.of_checkedFor
    (fun w s op hpass => ⟨hcondition w s op hpass, desk_answer w s op⟩) 5 _ _ hcheck)

end Fixture

end Preseed.Appearance
