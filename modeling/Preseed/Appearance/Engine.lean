import Preseed.Appearance.Greeter

/-!
# Appearance changes

`apply_choice` and `recover` of the appearance engine: an account's files, its desktop settings and
the greeter change together. The greeter helper runs in a process of its own. What the choice makes
of a file is a parameter.
-/

namespace Preseed.Appearance

open Effects

/-- The two settings of `KEYS`, as `gsettings` prints them. -/
structure Settings where
  colorScheme : Bytes
  gtkTheme : Bytes
  deriving DecidableEq

/-- A key of `KEYS`. -/
inductive Key
  | colorScheme | gtkTheme
  deriving DecidableEq

def Settings.set (settings : Settings) : Key → Bytes → Settings
  | .colorScheme, value => { settings with colorScheme := value }
  | .gtkTheme, value => { settings with gtkTheme := value }

/-- A character of a setting. -/
def settingCharacter (c : UInt8) : Bool :=
  (97 ≤ c && c ≤ 122) || (65 ≤ c && c ≤ 90) || (48 ≤ c && c ≤ 57) ||
    [95, 46, 32, 43, 58, 45].contains c

/-- The pattern of a setting: up to 100 such characters between apostrophes. -/
def settingMatches (value : Bytes) : Bool :=
  value.head? = some 39 && value.getLast? = some 39 && 3 ≤ value.length && value.length ≤ 102 &&
    (value.tail.dropLast).all settingCharacter

/-- Settings that `settings(values)` accepts. -/
def Settings.Accepted (settings : Settings) : Prop :=
  settingMatches settings.colorScheme = true ∧ settingMatches settings.gtkTheme = true

instance (settings : Settings) : Decidable settings.Accepted :=
  inferInstanceAs (Decidable (_ ∧ _))

/-- The journal of an account. -/
structure Change (ν : Type) extends Journal ν where
  greeter : Bool
  dockRunning : Bool
  filesStarted : Bool
  oldSettings : Option Settings
  newSettings : Option Settings

/-- Errors of the helper that `recover` puts off. -/
def Fault.isPutOff : Fault → Bool
  | .osError | .runtimeError | .subprocessError => true
  | .valueError | .interrupted => false

variable {δ : Type} {ν : Type}

/-- What the engine does. -/
inductive EngineStep (lib : Library δ) (ν : Type)
  | read (name : ν) (limit : ℕ)
  | write (name : ν) (data : Option Bytes)
  | readJournal
  | writeJournal (journal : Option (Change ν))
  | getSettings
  | setSetting (key : Key) (value : Bytes)
  | dockActive
  | dockStop
  | dockStart
  /-- The helper's action `cache-icons`. -/
  | cacheIcons
  /-- The helper's other actions. -/
  | privileged (token : ℕ) (action : ThemeAction lib)

variable {lib : Library δ}

/-- What a step returns that does not raise. -/
def EngineStep.Reply : EngineStep lib ν → Type
  | read _ _ => Option Bytes
  | readJournal => Option (Change ν)
  | getSettings => Settings
  | dockActive => Bool
  | write _ _ | writeJournal _ | setSetting _ _ | dockStop | dockStart | cacheIcons
  | privileged _ _ => Unit

abbrev Engine (lib : Library δ) (ν : Type) : Interface :=
  ⟨EngineStep lib ν, fun step => Except Fault step.Reply⟩

abbrev EngineAct (lib : Library δ) (ν α : Type) := Act (Engine lib ν) Unit Fault α

def EngineStep.perform (op : EngineStep lib ν) : EngineAct lib ν op.Reply := do
  let answer ← Act.perform op
  Act.lift answer

/-- The account's files. -/
def home : Tree (Engine lib ν) ν where
  read name limit := EngineStep.perform (.read name limit)
  write name data := EngineStep.perform (.write name data)

def putChange (journal : Change ν) : EngineAct lib ν Unit :=
  EngineStep.perform (.writeJournal (some journal))

def removeChange : EngineAct lib ν Unit := EngineStep.perform (.writeJournal none)

/-- `privileged`. -/
def privileged (token : ℕ) (action : ThemeAction lib) : EngineAct lib ν Unit :=
  EngineStep.perform (.privileged token action)

/-- One setting of `settings(values)`. -/
def setSetting (key : Key) (value : Bytes) : EngineAct lib ν Unit :=
  if settingMatches value = true then EngineStep.perform (.setSetting key value)
  else Act.raise .valueError

/-- `settings(values)`. -/
def setSettings (values : Settings) : EngineAct lib ν Unit := do
  setSetting .colorScheme values.colorScheme
  setSetting .gtkTheme values.gtkTheme
  let observed : Settings ← EngineStep.perform .getSettings
  if observed = values then pure () else Act.raise .runtimeError

section Recover

/-- `'commit' if committed else 'rollback'`. -/
def Phase.action : Phase → ThemeAction lib
  | .committed => .commit
  | .prepared => .rollback

/-- The helper finishes or undoes its side; the result says whether it failed. -/
def recoverGreeter (journal : Change ν) : EngineAct lib ν Bool :=
  if journal.greeter = true ∧ journal.filesStarted = true then
    Act.handleIf (do
      privileged journal.token journal.phase.action
      pure false) Fault.isPutOff fun _ => pure true
  else pure false

variable [DecidableEq ν]

/-- The account's side is undone. -/
def recoverLocal (journal : Change ν) : EngineAct lib ν Unit :=
  if journal.phase = .prepared ∧ journal.filesStarted = true then do
    rollback home journal.toJournal
    match journal.oldSettings with
    | none => pure ()
    | some old => setSettings old
  else pure ()

/-- The end of a recovery. -/
def finishRecovery (journal : Change ν) (failed : Bool) : EngineAct lib ν Unit := do
  Act.when (journal.dockRunning = true) (EngineStep.perform .dockStart)
  if failed then Act.raise .runtimeError else removeChange

/-- `recover`, with the journal read. -/
def recoverChange (allowed : List ν) (journal : Change ν) : EngineAct lib ν Bool := do
  validate allowed journal.toJournal
  let failed ← recoverGreeter journal
  recoverLocal journal
  finishRecovery journal failed
  pure true

/-- `recover`. -/
def recover (allowed : List ν) : EngineAct lib ν Bool := do
  let pending ← EngineStep.perform .readJournal
  match pending with
  | none => pure false
  | some journal => recoverChange allowed journal

end Recover

/-- What a choice changes. A file may be skipped; `dockFiles` are rewritten after the dock has
stopped. -/
structure Choice (lib : Library δ) (ν : Type) (allowed : List ν) where
  token : ℕ
  /-- The texts of a greeter profile. -/
  greeter : Option (Edits lib)
  dock : Bool
  /-- The settings of a desktop theme. -/
  settings : Option Settings
  icon : Bool
  files : List (ν × (Option Bytes → Except Fault (Option (Option Bytes))))
  dockFiles : List (ν × (Bytes → Except Fault Bytes))
  /-- `CONFIG` and its text. -/
  config : ν × Bytes
  files_allowed : ∀ file ∈ files, file.1 ∈ allowed
  dock_allowed : ∀ file ∈ dockFiles, file.1 ∈ allowed
  config_allowed : config.1 ∈ allowed

section Apply

variable [DecidableEq ν] {allowed : List ν}

/-- `updates[name] = data`. -/
def assign (updates : List (ν × Option Bytes)) (name : ν) (data : Option Bytes) :
    List (ν × Option Bytes) :=
  if name ∈ updates.map Prod.fst then
    updates.map fun update => if update.1 = name then (name, data) else update
  else updates ++ [(name, data)]

/-- One file of the choice. -/
def collectFile (updates : List (ν × Option Bytes))
    (file : ν × (Option Bytes → Except Fault (Option (Option Bytes)))) :
    EngineAct lib ν (List (ν × Option Bytes)) := do
  let raw ← home.read file.1 maxText
  let value ← Act.lift (file.2 raw)
  match value with
  | none => pure updates
  | some data => pure (assign updates file.1 data)

/-- The updates of a choice. -/
def collect (choice : Choice lib ν allowed) : EngineAct lib ν (List (ν × Option Bytes)) := do
  let updates ← Act.fold collectFile [] choice.files
  pure (assign updates choice.config.1 (some choice.config.2))

/-- One file of the stopped dock. -/
def collectDock (updates : List (ν × Option Bytes)) (file : ν × (Bytes → Except Fault Bytes)) :
    EngineAct lib ν (List (ν × Option Bytes)) := do
  let raw ← home.read file.1 maxText
  match raw with
  | none => Act.raise .osError
  | some source => do
    let value ← Act.lift (file.2 source)
    pure (assign updates file.1 (some value))

/-- The dock is stopped, and its files are planned again. -/
def quiesce (choice : Choice lib ν allowed) (updates : List (ν × Option Bytes))
    (journal : Change ν) : EngineAct lib ν (Change ν) := do
  EngineStep.perform .dockStop
  let updates ← Act.fold collectDock updates choice.dockFiles
  let replacement ← plan home updates choice.token
  putChange { journal with images := replacement.images }
  pure { journal with images := replacement.images }

def applySettings : Option Settings → EngineAct lib ν Unit
  | none => pure ()
  | some new => setSettings new

def applyGreeter (choice : Choice lib ν allowed) : EngineAct lib ν Unit :=
  match choice.greeter with
  | none => pure ()
  | some edits => privileged choice.token (.apply edits)

/-- The change itself, up to its commitment. -/
def writeChange (choice : Choice lib ν allowed) (journal : Change ν) : EngineAct lib ν Unit := do
  putChange { journal with filesStarted := true }
  apply home journal.toJournal
  applySettings choice.settings
  Act.when (choice.icon = true) (EngineStep.perform .cacheIcons)
  applyGreeter choice
  putChange { journal with filesStarted := true, phase := .committed }

def quiesceIf (choice : Choice lib ν allowed) (updates : List (ν × Option Bytes))
    (journal : Change ν) : EngineAct lib ν (Change ν) :=
  if journal.dockRunning then quiesce choice updates journal else pure journal

/-- The part of a change that an error undoes. -/
def attempt (choice : Choice lib ν allowed) (updates : List (ν × Option Bytes))
    (journal : Change ν) : EngineAct lib ν Unit := do
  let ready ← quiesceIf choice updates journal
  writeChange choice ready

/-- After an error the change is recovered. -/
def undoChange (allowed : List ν) (error : Fault) : EngineAct lib ν Unit := do
  let _ ← recover allowed
  Act.raise error

/-- What follows the commitment. -/
def finishChange (choice : Choice lib ν allowed) (dockRunning : Bool) : EngineAct lib ν Unit := do
  Act.when (choice.greeter.isSome = true) (privileged choice.token .commit)
  Act.when (dockRunning = true) (EngineStep.perform .dockStart)
  removeChange

def dockRunning (choice : Choice lib ν allowed) : EngineAct lib ν Bool :=
  if choice.dock then EngineStep.perform .dockActive else pure false

def recordSettings (choice : Choice lib ν allowed) : EngineAct lib ν (Option Settings) :=
  match choice.settings with
  | none => pure none
  | some _ => do
    let old ← EngineStep.perform .getSettings
    pure (some old)

/-- The journal of a choice. -/
def changeOf (choice : Choice lib ν allowed) (planned : Journal ν) (dockRunning : Bool)
    (oldSettings : Option Settings) : Change ν :=
  { planned with
    greeter := choice.greeter.isSome
    dockRunning := dockRunning
    filesStarted := false
    oldSettings := oldSettings
    newSettings := choice.settings }

/-- `apply_choice`, after the lock is held. -/
def applyChoice (choice : Choice lib ν allowed) : EngineAct lib ν Unit := do
  let _ ← recover allowed
  let running ← dockRunning choice
  let old ← recordSettings choice
  let updates ← collect choice
  let planned ← plan home updates choice.token
  validate allowed planned
  putChange (changeOf choice planned running old)
  Act.handle (attempt choice updates (changeOf choice planned running old)) (undoChange allowed)
  finishChange choice running

end Apply

end Preseed.Appearance
