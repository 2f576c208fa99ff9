import Preseed.Effects.Safety

/-!
# Publishing a generation of nftables files

`write_generation` of the policy generator. It copies what it is about to replace into
a recovery bundle, validates candidates, and only then replaces the files and reloads
the two tables the installer owns. Whatever fails after that is rolled back from the
bundle, and the bundle stays on disk where the outcome is not known.
-/

namespace Preseed.Nftables

open Effects

/-- The exceptions the generator tells apart. `cancelled` is `KeyboardInterrupt` and `SystemExit`. -/
inductive FaultKind
  | osError | policyError | commandTimeout | recoveryRequired | cancelled | other
  deriving DecidableEq

/-- A raised exception with its text. -/
structure Fault where
  /-- Its class. -/
  kind : FaultKind
  /-- `str(exc)`. -/
  text : String
  deriving DecidableEq

/-- Matched by `except OSError`. -/
def Fault.isOs (fault : Fault) : Bool := fault.kind = .osError

/-- Matched by `except (PolicyError, OSError)`. -/
def Fault.isPolicyOrOs (fault : Fault) : Bool :=
  fault.kind ∈ [.osError, .policyError, .commandTimeout, .recoveryRequired]

/-- The tables the installer owns. -/
inductive Owned
  | filter | nat
  deriving DecidableEq

/-- The family and the name of an owned table. -/
def Owned.identity : Owned → String × String
  | .filter => ("inet", "labwc_filter")
  | .nat => ("ip", "labwc_nat")

/-- What the kernel holds of the owned tables. -/
abbrev Live : Type := Owned → Option String

/-- One command of `live.nft`: destroy an owned table, or define it as it was listed. -/
inductive LiveCommand
  | destroy (table : Owned)
  | define (table : Owned) (text : String)
  deriving DecidableEq

/-- The tables after one command. -/
def LiveCommand.run (live : Live) : LiveCommand → Live
  | .destroy table => fun other => if other = table then none else live other
  | .define table text => fun other => if other = table then some text else live other

/-- A regular file. -/
structure File where
  /-- Its bytes. -/
  data : String
  /-- Its permissions. -/
  mode : ℕ
  /-- Its owner. -/
  uid : ℕ
  /-- Its group. -/
  gid : ℕ
  deriving DecidableEq

/-- What `lstat` says about something at a path. -/
structure Stat where
  /-- It is a regular file. -/
  regular : Bool
  /-- Its permissions. -/
  mode : ℕ
  /-- Its owner. -/
  uid : ℕ
  /-- Its group. -/
  gid : ℕ
  /-- Its size in bytes. -/
  size : ℕ
  deriving DecidableEq

/-- `not S_ISREG(mode) or uid != 0 or mode & 0o022 or size > 16 MiB`. -/
def Stat.unsafePrevious (stat : Stat) : Bool :=
  !stat.regular || stat.uid ≠ 0 || stat.mode &&& 0o022 ≠ 0 || 16 * 1024 * 1024 < stat.size

/-- One entry of `previous`: what stood at a generated path. -/
structure Saved where
  /-- `state["path"]`. -/
  path : String
  /-- The number of the backup, `previous-{index}`. -/
  index : ℕ
  /-- The mode, owner and group of the file, if there was one. -/
  existed : Option (ℕ × ℕ × ℕ)
  deriving DecidableEq

/-- What the generator does to the system. -/
inductive Action
  | trustedOutput (path : String)
  | durableDirectory
  | makeRecovery
  | backup (index : ℕ) (path : String)
  | writeCandidate (index : ℕ) (content : String)
  | writeManifest (previous : List Saved)
  | writeLive (commands : List LiveCommand)
  | validateCandidate (index : ℕ)
  | syncRecovery
  | publish (path content : String) (mode : ℕ)
  | validatePublished
  | reload
  | restore (saved : Saved)
  | remove (path : String)
  | rollbackLive
  | removeRecovery
  | syncBackups
  deriving DecidableEq

/-- What the generator asks of the system. -/
inductive Step
  | lstat (path : String)
  | listTables
  | listTable (table : Owned)
  | act (action : Action)
  deriving DecidableEq

/-- What a successful step returns. -/
def Step.Reply : Step → Type
  | .lstat _ => Option Stat
  | .listTables => List (String × String)
  | .listTable _ => String
  | .act _ => Unit

/-- The interface of the generator: every step may raise. -/
abbrev System : Interface := ⟨Step, fun step => Except Fault step.Reply⟩

/-- The local variables of `write_generation` that its handlers use. -/
structure Locals where
  /-- `previous`. -/
  previous : List Saved
  /-- `attempted`. -/
  attempted : List String
  /-- `live_attempted`. -/
  liveAttempted : Bool
  /-- `retain`. -/
  retain : Bool
  deriving DecidableEq

/-- A program of the generator. -/
abbrev PublishAct := Act System Locals Fault

/-- Take a step and raise what it raises. -/
def step (op : Step) : PublishAct op.Reply := do
  let answer ← Act.perform op
  Act.lift answer

/-- `path.exists() or path.is_symlink()`, and `path.lstat()` if so. -/
def lstat (path : String) : PublishAct (Option Stat) := step (.lstat path)

/-- The tables of `nft -j list tables`. -/
def listTables : PublishAct (List (String × String)) := step .listTables

/-- The output of `nft list table`. -/
def listTable (table : Owned) : PublishAct String := step (.listTable table)

/-- Do something to the system. -/
def act (action : Action) : PublishAct Unit := step (.act action)

/-- The arguments of `write_generation`: what `--check`, `--reload` and the output paths say, and
the generated files, whose paths are the keys of a dictionary. -/
structure Generation where
  /-- `args.check`. -/
  check : Bool
  /-- `args.reload`. -/
  reload : Bool
  /-- `paths.values()`. -/
  paths : List String
  /-- `paths["nftables_conf"]`. -/
  conf : String
  /-- `rendered.items()`. -/
  rendered : List (String × String)
  /-- A path is generated once. -/
  nodup : (rendered.map Prod.fst).Nodup

/-- `quote_nft_string`. -/
def quoteNftString (value : String) : String :=
  "\"" ++ (value.replace "\\" "\\\\").replace "\"" "\\\"" ++ "\""

/-- The path of a candidate in the bundle. -/
def candidatePath (recovery : String) (index : ℕ) : String :=
  recovery ++ "/candidate-" ++ toString index ++ ".nft"

/-- A file's content with the includes of generated files turned to their candidates. -/
def redirect (recovery : String) (targets : List String) (content : String) : String :=
  (targets.zipIdx).foldl (fun content target =>
    content.replace (quoteNftString target.1) (quoteNftString (candidatePath recovery target.2)))
    content

/-- What `atomic_write` writes. -/
def withNewline (content : String) : String :=
  if content.toList.getLast? = some '\n' then content else content ++ "\n"

/-- The mode a generated file is published with. -/
def Generation.mode (gen : Generation) (path : String) : ℕ :=
  if path = gen.conf then 0o755 else 0o644

/-- Save what stands at one path. -/
def savePrevious (path : String) (index : ℕ) : PublishAct Saved := do
  match ← lstat path with
  | none => pure ⟨path, index, none⟩
  | some stat =>
    if stat.unsafePrevious then
      Act.raise ⟨.policyError, "unsafe previous generated file: " ++ path⟩
    else do
      act (.backup index path)
      pure ⟨path, index, some (stat.mode, stat.uid, stat.gid)⟩

/-- Save what stands at one path, and write the candidate. -/
def saveOne (gen : Generation) (recovery : String) (entry : (String × String) × ℕ) :
    PublishAct Unit := do
  let ((path, content), index) := entry
  let saved ← savePrevious path index
  Act.modify fun s => { s with previous := s.previous ++ [saved] }
  act (.writeCandidate index (redirect recovery (gen.rendered.map Prod.fst) content))

/-- The listing of one owned table, if the kernel has it. -/
def snapshotTable (tables : List (String × String)) (commands : List LiveCommand) (table : Owned) :
    PublishAct (List LiveCommand) :=
  if table.identity ∈ tables then do
    let text ← listTable table
    pure (commands ++ [.define table text])
  else pure commands

/-- The snapshot of the owned tables. -/
def snapshotLive : PublishAct Unit := do
  let tables ← listTables
  let commands ← Act.fold (snapshotTable tables) [.destroy .filter, .destroy .nat] [.filter, .nat]
  act (.writeLive commands)

/-- Everything before the first published file: previous state and candidates, validated. -/
def prepare (gen : Generation) (recovery : String) : PublishAct Unit := do
  Act.forEach gen.rendered.zipIdx (saveOne gen recovery)
  let s ← Act.get
  act (.writeManifest s.previous)
  Act.when gen.check
    (match gen.rendered.findIdx? fun entry => entry.1 = gen.conf with
      | some index => act (.validateCandidate index)
      | none => Act.raise ⟨.other, gen.conf⟩)
  Act.when gen.reload snapshotLive
  act .syncRecovery

/-- Publish one file. -/
def publishOne (gen : Generation) (entry : String × String) : PublishAct Unit := do
  Act.modify fun s => { s with attempted := s.attempted ++ [entry.1] }
  act (.publish entry.1 entry.2 (gen.mode entry.1))

/-- The `try` of `write_generation`. -/
def publish (gen : Generation) (recovery : String) : PublishAct Unit := do
  prepare gen recovery
  -- From here on a cancellation, even of the rollback itself, keeps the bundle.
  Act.modify fun s => { s with retain := true }
  Act.forEach gen.rendered (publishOne gen)
  Act.when gen.check (act .validatePublished)
  Act.when gen.reload (do
    Act.modify fun s => { s with liveAttempted := true }
    act .reload)
  Act.modify fun s => { s with retain := false }

/-- Restore what stood at one path, and collect what fails. -/
def restoreSaved (attempted : List String) (failures : List String) (saved : Saved) :
    PublishAct (List String) :=
  if saved.path ∉ attempted then pure failures
  else
    Act.handleIf
      (do
        match saved.existed with
        | some _ => act (.restore saved)
        | none => act (.remove saved.path)
        pure failures)
      Fault.isOs
      fun _ => pure (failures ++ ["cannot restore " ++ saved.path])

/-- Put the previous owned tables back. -/
def restoreLive (failures : List String) : PublishAct (List String) :=
  Act.handleIf
    (do
      act .rollbackLive
      pure failures)
    Fault.isPolicyOrOs
    fun _ => pure (failures ++ ["cannot restore previous owned live tables"])

/-- The end of a rollback: raise what is known about its outcome. -/
def conclude (error : Fault) (failures : List String) (uncertain : Bool) : PublishAct Unit :=
  if failures ≠ [] ∨ uncertain then do
    Act.modify fun s => { s with retain := true }
    Act.raise ⟨.recoveryRequired, "policy outcome unknown"⟩
  else do
    Act.modify fun s => { s with retain := false }
    if error.kind = .cancelled then Act.raise error
    else Act.raise ⟨.policyError, "policy generation failed; previous state restored: " ++ error.text⟩

/-- The `except BaseException` of `write_generation`. -/
def rollback (error : Fault) : PublishAct Unit := do
  let s ← Act.get
  let failures ← Act.fold (restoreSaved s.attempted) [] s.previous.reverse
  let failures ← (if s.liveAttempted then restoreLive failures else pure failures :
    PublishAct (List String))
  -- A reload that timed out may still be carried out by the service manager.
  conclude error failures (s.liveAttempted && decide (error.kind = .commandTimeout))

/-- The `finally` of `write_generation`. -/
def cleanup : PublishAct Unit := do
  let s ← Act.get
  Act.when (s.retain = false) (do
    act .removeRecovery
    act .syncBackups)

/-- `write_generation`. -/
def writeGeneration (gen : Generation) (recovery : String) : PublishAct Unit := do
  Act.when (¬gen.paths.Nodup)
    (Act.raise ⟨.policyError, "generated output paths must be distinct"⟩)
  Act.forEach gen.rendered fun entry => act (.trustedOutput entry.1)
  act (.trustedOutput recovery)
  act .durableDirectory
  act .makeRecovery
  Act.ensuring (Act.handle (publish gen recovery) rollback) cleanup

/-- The local variables before the `try`. -/
def Locals.initial : Locals := ⟨[], [], false, false⟩

/-! ### The system -/

/-- The recovery bundle. -/
structure Bundle where
  /-- The backups by number. -/
  backups : ℕ → Option String
  /-- `previous.json`. -/
  manifest : Option (List Saved)
  /-- `live.nft`. -/
  live : Option (List LiveCommand)

/-- An empty recovery directory. -/
def Bundle.empty : Bundle := ⟨fun _ => none, none, none⟩

/-- The files, the owned tables and the recovery directory. `begun` and `uncleaned` are ghosts: the
recovery directory has been made, and removing it has failed. -/
structure System.World where
  /-- What stands at each path. -/
  files : String → Option File
  /-- The owned tables. -/
  live : Live
  /-- The recovery directory of this generation. -/
  bundle : Option Bundle
  /-- The recovery directory has been made. -/
  begun : Bool
  /-- The recovery directory could not be removed. -/
  uncleaned : Bool

/-- The world with another file at a path. -/
def System.World.put (w : System.World) (path : String) (file : Option File) : System.World :=
  { w with files := fun other => if other = path then file else w.files other }

/-- The file `atomic_write` leaves, of the user the generator runs as. -/
def writtenFile (owner : ℕ × ℕ) (content : String) (mode : ℕ) : File :=
  ⟨withNewline content, mode, owner.1, owner.2⟩

/-- The file a restored backup leaves. -/
def Bundle.restored (bundle : Bundle) (saved : Saved) : Option File := do
  let data ← bundle.backups saved.index
  let (mode, uid, gid) ← saved.existed
  pure ⟨data, mode, uid, gid⟩

/-- The step runs a command, or checks what it is about to trust. -/
def Step.checks : Step → Bool
  | .listTables | .listTable _ => true
  | .act action =>
    match action with
    | .trustedOutput _ | .validateCandidate _ | .validatePublished | .reload | .rollbackLive => true
    | _ => false
  | .lstat _ => false

/-- The classes of exceptions a step may raise. `RecoveryRequired` is raised by `write_generation`
only, and `PolicyError` by `run_checked` and `trusted_output`. -/
def Step.mayRaise (op : Step) : FaultKind → Bool
  | .recoveryRequired => false
  | .policyError | .commandTimeout => op.checks
  | .osError | .cancelled | .other => true

/-- An action that changes the world: it has its effect, or it raises and has had it or not. -/
def effect (w after : System.World) (answer : Except Fault Unit) (w' : System.World) : Prop :=
  w' = after ∨ (∃ e, answer = .error e) ∧ w' = w

/-- An action that leaves `after` if it succeeds, and something of `failed` if it raises. -/
def outcomes (after failed : System.World → Prop) (answer : Except Fault Unit)
    (w' : System.World) : Prop :=
  (answer = .ok () → after w') ∧ ∀ e, answer = .error e → failed w'

/-- An action on the bundle: it has its effect, or it raises and leaves any bundle. -/
def bundleEffect (w : System.World) (after : Bundle → Bundle) : Except Fault Unit →
    System.World → Prop :=
  outcomes (· = { w with bundle := w.bundle.map after }) fun w' =>
    ∃ bundle, w' = { w with bundle := bundle }

/-- What an action does. A failed reload or live rollback may leave the owned tables in any state.
`ruleset` says which owned tables loading the files gives. -/
def Action.does (owner : ℕ × ℕ) (ruleset : (String → Option File) → Live) (w : System.World) :
    Action → Except Fault Unit → System.World → Prop
  | .trustedOutput _ | .durableDirectory | .validateCandidate _ | .validatePublished
  | .syncRecovery => fun _ w' => w' = w
  | .makeRecovery => outcomes (· = { w with bundle := some Bundle.empty, begun := true }) fun w' =>
      ∃ bundle, w' = { w with bundle := bundle }
  | .backup index path => bundleEffect w fun bundle => { bundle with
      backups := fun i => if i = index then (w.files path).map File.data else bundle.backups i }
  | .writeCandidate _ _ => bundleEffect w id
  | .writeManifest previous => bundleEffect w fun bundle => { bundle with manifest := some previous }
  | .writeLive commands => bundleEffect w fun bundle => { bundle with live := some commands }
  | .publish path content mode => effect w (w.put path (some (writtenFile owner content mode)))
  | .reload => outcomes (· = { w with live := ruleset w.files }) fun w' =>
      ∃ live, w' = { w with live := live }
  | .restore saved =>
    effect w (w.put saved.path (w.bundle.bind fun bundle => bundle.restored saved))
  | .remove path => effect w (w.put path none)
  | .rollbackLive => outcomes
      (fun w' => ∃ commands, w.bundle.bind Bundle.live = some commands ∧
        w' = { w with live := commands.foldl LiveCommand.run w.live })
      fun w' => ∃ live, w' = { w with live := live }
  | .removeRecovery => outcomes (· = { w with bundle := none }) fun w' =>
      ∃ bundle, w' = { w with bundle := bundle, uncleaned := true }
  | .syncBackups => outcomes (· = w) (· = { w with uncleaned := true })

/-- The system: every step may raise, before or after it has had its effect. -/
def nftables (owner : ℕ × ℕ) (ruleset : (String → Option File) → Live) :
    Environment System Locals System.World := fun w _ op =>
  match op with
  | .lstat path => fun (answer : Except Fault (Option Stat)) w' =>
    (∀ e, answer = .error e → (Step.lstat path).mayRaise e.kind = true) ∧ w' = w ∧
      ∀ stat, answer = .ok stat → stat.map (fun stat => (stat.mode, stat.uid, stat.gid)) =
        (w.files path).map fun file => (file.mode, file.uid, file.gid)
  | .listTables => fun (answer : Except Fault (List (String × String))) w' =>
    (∀ e, answer = .error e → Step.listTables.mayRaise e.kind = true) ∧ w' = w ∧
      ∀ tables, answer = .ok tables →
        ∀ table : Owned, table.identity ∈ tables ↔ (w.live table).isSome
  | .listTable table => fun (answer : Except Fault String) w' =>
    (∀ e, answer = .error e → (Step.listTable table).mayRaise e.kind = true) ∧ w' = w ∧
      ∀ text, answer = .ok text → w.live table = some text
  | .act action => fun (answer : Except Fault Unit) w' =>
    (∀ e, answer = .error e → (Step.act action).mayRaise e.kind = true) ∧
      action.does owner ruleset w answer w'

end Preseed.Nftables
