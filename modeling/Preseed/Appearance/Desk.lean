import Preseed.Appearance.Engine
import Preseed.Appearance.ThemeRuns

/-!
# An account and its greeter

What the engine's steps do to an account's files, its settings and the greeter, with helpers that
outlive their callers, and what holds while a change is pending.
-/

namespace Preseed.Appearance

open Effects

/-- The contents of all that a change may touch. -/
structure Snapshot (δ ν : Type) where
  file : ν → Option Bytes
  settings : Settings
  greeter : Name δ → Option Bytes

variable {δ : Type} {ν : Type} {lib : Library δ}

def ThemeAction.IsApply : ThemeAction lib → Prop
  | .apply _ => True
  | _ => False

/-- A call of the helper. -/
structure Request (lib : Library δ) where
  token : ℕ
  action : ThemeAction lib

/-- The account, the greeter and what the statements remember of a run. -/
structure Desk (lib : Library δ) (ν : Type) where
  file : ν → Option Bytes
  journal : Option (Change ν)
  settings : Settings
  greeter : Greeter δ
  /-- Helpers whose callers no longer wait for them. -/
  late : List (Request lib)
  /-- The tokens of which a rollback has returned, and nobody will ask for another. -/
  rolledBack : List ℕ
  /-- What there was when the last change was recorded. -/
  base : Snapshot δ ν
  /-- The last journal that was recorded. -/
  last : Option (Change ν)
  /-- The texts that a helper was last asked to apply. -/
  asked : Option (Edits lib)

def Desk.snapshot (w : Desk lib ν) : Snapshot δ ν := ⟨w.file, w.settings, w.greeter.file⟩

/-- A journal is recorded, or removed. -/
def Desk.record (w : Desk lib ν) : Option (Change ν) → Desk lib ν
  | none => { w with journal := none }
  | some journal =>
    { w with
      journal := some journal
      last := some journal
      base := match w.journal with
        | none => w.snapshot
        | some _ => w.base }

/-- A helper is called. -/
def Desk.ask (w : Desk lib ν) : ThemeAction lib → Desk lib ν
  | .apply edits => { w with asked := some edits }
  | _ => w

/-- A helper has returned. -/
def Desk.returned (w : Desk lib ν) (token : ℕ) : ThemeAction lib → Desk lib ν
  | .rollback => { w with rolledBack := token :: w.rolledBack }
  | _ => w

/-- A change that is pending will be rolled back again. -/
def Desk.remembered (w : Desk lib ν) : List ℕ :=
  match w.journal with
  | none => w.rolledBack
  | some journal =>
    if journal.phase = .prepared ∧ journal.greeter = true then
      w.rolledBack.filter (· ≠ journal.token)
    else w.rolledBack

/-- A process has stopped. -/
def Desk.stopped (w : Desk lib ν) : Desk lib ν := { w with rolledBack := w.remembered }

/-- A late helper runs. `allowed` says which may. -/
def LateRun [DecidableEq δ] (uid : ℕ) (allowed : Desk lib ν → Request lib → Prop)
    (w w' : Desk lib ν) : Prop :=
  ∃ before request after g p, w.late = before ++ request :: after ∧ allowed w request ∧
    Program.Steps (greeter true) w.greeter (theme uid request.token request.action ()) g p ∧
      w' = { w with greeter := g, late := before ++ after }

/-- A write that succeeds, or fails with or without its effect. -/
def Wrote {W : Type} (w w' : W) (answer : Except Fault Unit) (m : W) : Prop :=
  m = w' ∨ (∃ e, answer = .error e) ∧ m = w

/-- The journal that is read is the stored one; the keys of its images are sorted in the file. -/
def Change.Same (journal stored : Change ν) : Prop :=
  journal = { stored with images := journal.images } ∧ journal.images.Perm stored.images

/-- What a step does, and its answer. Late helpers may run before one that is called: nothing else
the engine does sees the greeter. A helper that is not waited for may run later, or has run, perhaps
not to its end. -/
def EngineStep.does [DecidableEq δ] [DecidableEq ν] (uid : ℕ)
    (allowed : Desk lib ν → Request lib → Prop) (w : Desk lib ν) :
    (op : EngineStep lib ν) → (Engine lib ν).Res op → Desk lib ν → Prop
  | .read name limit => fun (answer : Except Fault (Option Bytes)) w' => w' = w ∧
      ∀ data, answer = .ok data → data = w.file name ∧ size data ≤ limit
  | .write name data => fun (answer : Except Fault Unit) w' =>
      Wrote w { w with file := Function.update w.file name data } answer w'
  | .readJournal => fun (answer : Except Fault (Option (Change ν))) w' => w' = w ∧
      (answer = .ok none → w.journal = none) ∧
      ∀ journal, answer = .ok (some journal) →
        ∃ stored, w.journal = some stored ∧ journal.Same stored
  | .writeJournal journal => fun (answer : Except Fault Unit) w' =>
      Wrote w (w.record journal) answer w'
  | .getSettings => fun (answer : Except Fault Settings) w' => w' = w ∧
      ∀ settings, answer = .ok settings → settings = w.settings
  | .setSetting key value => fun (_ : Except Fault Unit) w' =>
      w' = { w with settings := w.settings.set key value } ∨ w' = w
  | .dockActive | .dockStop | .dockStart | .cacheIcons => fun _ w' => w' = w
  | .privileged token action => fun (answer : Except Fault Unit) w' =>
      ∃ w₁, Relation.ReflTransGen (LateRun uid allowed) w w₁ ∧
        match answer with
        | .ok _ => ∃ g, Program.Steps (greeter true) w₁.greeter (theme uid token action ()) g
              (.done (.ok (), ())) ∧
            w' = ({ w₁.ask action with greeter := g } : Desk lib ν).returned token action
        | .error _ => (∃ g p, Program.Steps (greeter true) w₁.greeter (theme uid token action ()) g p ∧
              w' = { w₁.ask action with greeter := g }) ∨
            w' = { w₁.ask action with late := w₁.late ++ [⟨token, action⟩] }

/-- The account and its greeter. -/
def desk [DecidableEq δ] [DecidableEq ν] (uid : ℕ) (allowed : Desk lib ν → Request lib → Prop) :
    Environment (Engine lib ν) Unit (Desk lib ν) :=
  fun w _ op answer w' => op.does uid allowed w answer w'

/-- No application runs after the last rollback of its token has returned. -/
def OnTime (w : Desk lib ν) (request : Request lib) : Prop :=
  request.action.IsApply → request.token ∉ w.rolledBack

/-- A journal whose files are to be written has old settings that can be restored. -/
def Restorable (_ : Desk lib ν) (_ : Unit) : EngineStep lib ν → Prop
  | .writeJournal (some journal) => journal.filesStarted = true →
      ∀ old, journal.oldSettings = some old → old.Accepted
  | _ => True

section Contents

/-- All files, the settings and the greeter are as they were. -/
def AllOld (w : Desk lib ν) : Prop :=
  w.file = w.base.file ∧ w.settings = w.base.settings ∧ w.greeter.file = w.base.greeter

/-- All files, the settings and the greeter are as a journal's change has them. -/
structure Renews (journal : Change ν) (w : Desk lib ν) : Prop where
  files : Renewed w.file journal.toJournal
  others : ∀ name, (∀ image ∈ journal.images, image.name ≠ name) → w.file name = w.base.file name
  settings : w.settings = journal.newSettings.getD w.base.settings
  greeter : journal.greeter = true →
    ∃ edits, w.asked = some edits ∧ Edited edits w.base.greeter w.greeter.file
  untouched : journal.greeter = false → w.greeter.file = w.base.greeter

/-- All are as the last change has them. -/
def AllNew (w : Desk lib ν) : Prop := ∃ journal, w.last = some journal ∧ Renews journal w

end Contents

section Phases

variable (uid : ℕ) (allowed : List ν) (tokens : List ℕ)

/-- A token that has not been used. -/
def Fresh (w : Desk lib ν) (token : ℕ) : Prop :=
  token ∉ w.rolledBack ∧ (∀ request ∈ w.late, request.token ≠ token) ∧
    ∀ journal, w.journal = some journal → journal.token ≠ token

/-- The greeter has these files, and no application is to come. -/
def Still (file : Name δ → Option Bytes) (w : Desk lib ν) : Prop :=
  Untouched file w.greeter ∧
    ∀ request ∈ w.late, request.action.IsApply → request.token ∈ w.rolledBack

/-- No helper has been called for a change. -/
def Unasked (journal : Change ν) (w : Desk lib ν) : Prop :=
  Still w.base.greeter w ∧ journal.token ∉ w.rolledBack ∧
    ∀ request ∈ w.late, request.token ≠ journal.token

/-- The greeter can go back. -/
structure Undecided (journal : Change ν) (w : Desk lib ν) : Prop where
  undoable : journal.greeter = true → Undoable w.base.greeter uid journal.token w.greeter
  apply : journal.greeter = true → ∀ request ∈ w.late, request.action.IsApply →
    request.token ∈ w.rolledBack ∨ request.token = journal.token
  commit : journal.greeter = true → ∀ request ∈ w.late, request.action = .commit →
    request.token ≠ journal.token
  still : journal.greeter = false → Still w.base.greeter w

/-- The greeter is as the change has it. -/
structure Decided (journal : Change ν) (w : Desk lib ν) : Prop where
  edited : journal.greeter = true →
    ∃ edits, w.asked = some edits ∧ Edited edits w.base.greeter w.greeter.file
  committing : journal.greeter = true → Committing w.greeter.file uid journal.token w.greeter
  apply : journal.greeter = true → ∀ request ∈ w.late, request.action.IsApply →
    request.token ∈ w.rolledBack
  rollback : journal.greeter = true → ∀ request ∈ w.late, request.action = .rollback →
    request.token ≠ journal.token
  still : journal.greeter = false → Still w.base.greeter w

/-- A recorded change. -/
structure Recorded (journal : Change ν) (w : Desk lib ν) : Prop where
  stored : ∃ stored, w.journal = some stored ∧ w.last = some stored ∧ journal.Same stored
  valid : journal.toJournal.Valid allowed
  nodup : (journal.images.map Image.name).Nodup
  old : Restored w.base.file journal.toJournal
  frame : ∀ name, (∀ image ∈ journal.images, image.name ≠ name) → w.file name = w.base.file name
  unchanged : journal.oldSettings = none → journal.newSettings = none ∧ w.settings = w.base.settings
  oldSettings : ∀ old, journal.oldSettings = some old →
    old = w.base.settings ∧ journal.newSettings ≠ none
  fresh : ∀ token ∈ tokens, Fresh w token

/-- A change that has written nothing. -/
structure Waiting (journal : Change ν) (w : Desk lib ν) : Prop extends
    Recorded allowed tokens journal w where
  prepared : journal.phase = .prepared
  notStarted : journal.filesStarted = false
  files : w.file = w.base.file
  settings : w.settings = w.base.settings
  unasked : Unasked journal w

/-- A change that is being written, or undone. -/
structure Written (journal : Change ν) (w : Desk lib ν) : Prop extends
    Recorded allowed tokens journal w where
  prepared : journal.phase = .prepared
  started : journal.filesStarted = true
  accepted : ∀ old, journal.oldSettings = some old → old.Accepted
  current : ∀ image ∈ journal.images,
    w.file image.name = image.old ∨ w.file image.name = image.new
  undecided : Undecided uid journal w

/-- A change that is committed. -/
structure Committed (journal : Change ν) (w : Desk lib ν) : Prop extends
    Recorded allowed tokens journal w where
  committed : journal.phase = .committed
  started : journal.filesStarted = true
  renewed : Renewed w.file journal.toJournal
  settled : ∀ new, journal.newSettings = some new → w.settings = new
  decided : Decided uid journal w

/-- No change is pending: the last one is complete, or undone. -/
structure Ended (w : Desk lib ν) : Prop where
  journal : w.journal = none
  still : Still w.greeter.file w
  complete : AllOld w ∨ AllNew w
  fresh : ∀ token ∈ tokens, Fresh w token

/-- The invariant. -/
def Consistent (w : Desk lib ν) : Prop :=
  Ended tokens w ∨ ∃ journal, Waiting allowed tokens journal w ∨
    Written uid allowed tokens journal w ∨ Committed uid allowed tokens journal w

end Phases

end Preseed.Appearance
