import Preseed.Appearance.Transaction

/-!
# The greeter helper

The three kinds of operation on the greeter directory, under `greeter.lock`: the theme helper's
`apply`, `commit` and `rollback`, the field update and the wallpaper publication. Digests are any
type; what the CSS parser makes of a stylesheet is a parameter.
-/

namespace Preseed.Appearance

open Effects

/-- `GREETER_FILES`. -/
inductive Sheet
  | gtkgreet | gtkgreetPower
  deriving DecidableEq

/-- `image_suffix`. -/
inductive Suffix
  | png | jpg
  deriving DecidableEq

variable (δ : Type)

/-- A file name that `ASSET_NAME` matches. -/
structure Asset where
  digest : δ
  suffix : Suffix
  deriving DecidableEq

/-- A name in the greeter directory. -/
inductive Name
  | sheet (sheet : Sheet)
  | asset (asset : Asset δ)
  | other (name : Bytes)
  deriving DecidableEq

/-- The three journals: `pending.json`, `fields-pending.json` and `wallpaper-pending.json`. -/
inductive Kind
  | theme | fields | wallpaper
  deriving DecidableEq

inductive Step
  | read (name : Name δ) (limit : ℕ)
  | write (name : Name δ) (data : Option Bytes) (replace : Bool)
  | scan
  | readJournal (kind : Kind)
  | writeJournal (kind : Kind) (journal : Option (Journal (Name δ)))

variable {δ}

/-- What a step returns that does not raise. -/
def Step.Reply : Step δ → Type
  | read _ _ => Option Bytes
  | write _ _ _ | writeJournal _ _ => Unit
  | scan => List (Name δ)
  | readJournal _ => Option (Journal (Name δ))

variable (δ) in
abbrev Helper : Interface := ⟨Step δ, fun step => Except Fault step.Reply⟩

variable (δ) in
abbrev HelperAct (α : Type) := Act (Helper δ) Unit Fault α

def step (op : Step δ) : HelperAct δ op.Reply := do
  let answer ← Act.perform op
  Act.lift answer

def readJournal (kind : Kind) : HelperAct δ (Option (Journal (Name δ))) := step (.readJournal kind)

def putJournal (kind : Kind) (journal : Journal (Name δ)) : HelperAct δ Unit :=
  step (.writeJournal kind (some journal))

def removeJournal (kind : Kind) : HelperAct δ Unit := step (.writeJournal kind none)

/-- `config`. -/
def config : Tree (Helper δ) (Name δ) where
  read name limit := step (.read name limit)
  write name data := step (.write name data true)

/-- `config.read(name)`, which raises where the file is missing. -/
def readFile (name : Name δ) (limit : ℕ) : HelperAct δ Bytes := do
  let data ← config.read name limit
  match data with
  | some data => pure data
  | none => Act.raise .osError

/-- `if state.json(...) is not None: raise`. -/
def refuse (kind : Kind) : HelperAct δ Unit := do
  let pending ← readJournal kind
  if pending.isSome then Act.raise .runtimeError else pure ()

/-- The files a greeter journal may name. -/
def sheets : List (Name δ) := [.sheet .gtkgreet, .sheet .gtkgreetPower]

/-- The library calls the helper rests on. -/
structure Library (δ : Type) where
  sha256 : Bytes → δ
  /-- The characters of a digest. -/
  hex : δ → Bytes
  /-- `stylesheet`. -/
  stylesheet : Bytes → Asset δ → Except Fault Bytes

def ascii (text : String) : Bytes := text.toList.map fun c => c.toNat.toUInt8

namespace Library

variable (lib : Library δ)

/-- The file name of an image. -/
def fileName (asset : Asset δ) : Bytes :=
  ascii "waypaper-wallpaper-" ++ lib.hex asset.digest ++
    match asset.suffix with
    | .png => ascii ".png"
    | .jpg => ascii ".jpg"

/-- The value of a `background-image` that names an image. -/
def reference (asset : Asset δ) : Bytes :=
  ascii "url(\"file:///etc/greetd/" ++ lib.fileName asset ++ ascii "\")"

/-- A stylesheet names an image. -/
def Names (sheet : Bytes) (asset : Asset δ) : Prop := lib.reference asset <:+: sheet

/-- What `stylesheet` promises: it adds no reference but the one to the image. -/
def Lawful : Prop := ∀ raw asset text, lib.stylesheet raw asset = .ok text →
  ∀ other, lib.Names text other → lib.Names raw other ∨ other = asset

end Library

section Wallpaper

/-- `MAX_BYTES`. -/
def maxBytes : ℕ := 32 * 1024 ^ 2

/-- `image_suffix`. -/
def imageSuffix (data : Bytes) : Except Fault Suffix :=
  if data.length < 8 ∨ maxBytes < data.length then .error .valueError
  else if [0x89, 0x50, 0x4e, 0x47, 0x0d, 0x0a, 0x1a, 0x0a].isPrefixOf data then .ok .png
  else if [0xff, 0xd8, 0xff].isPrefixOf data then .ok .jpg
  else .error .valueError

variable (lib : Library δ)

/-- An image's content is the one its name states. -/
def Library.States (asset : Asset δ) (data : Bytes) : Prop :=
  lib.sha256 data = asset.digest ∧ imageSuffix data = .ok asset.suffix

variable [DecidableEq δ]

/-- The journal that `publish` finds is rolled back. -/
def recoverWallpaper : HelperAct δ Unit := do
  let pending ← readJournal .wallpaper
  match pending with
  | none => pure ()
  | some journal => do
    validate [.sheet .gtkgreet] journal
    rollback config journal
    checkCurrent config false journal
    removeJournal .wallpaper

/-- One directory entry of the pruning. -/
def pruneEntry (references : Bytes) : Name δ → HelperAct δ Unit
  | .asset asset =>
    if lib.fileName asset <:+: references then pure ()
    else step (.write (.asset asset) none true)
  | _ => pure ()

/-- Entries are counted while they are pruned. -/
def prune (references : Bytes) : ℕ → List (Name δ) → HelperAct δ Unit
  | _, [] => pure ()
  | count, entry :: entries =>
    if 256 < count + 1 then Act.raise .valueError
    else do
      pruneEntry lib references entry
      prune references (count + 1) entries

/-- The pruning of images that no stylesheet names. -/
def pruneAssets : HelperAct δ Unit := do
  let css ← readFile (.sheet .gtkgreet) maxText
  let power ← readFile (.sheet .gtkgreetPower) maxText
  let entries ← step .scan
  prune lib (css ++ [10] ++ power) 0 entries

/-- The image is stored under its digest. -/
def storeAsset (asset : Asset δ) (data : Bytes) : HelperAct δ Unit := do
  let existing ← config.read (.asset asset) maxBytes
  match existing with
  | none => step (.write (.asset asset) (some data) false)
  | some stored => if stored = data then pure () else Act.raise .valueError

/-- After an error the previous stylesheet comes back. -/
def undoPublication (journal : Journal (Name δ)) (error : Fault) : HelperAct δ Unit := do
  Act.handle (do
    rollback config journal
    checkCurrent config false journal
    removeJournal .wallpaper) fun _ => Act.raise .runtimeError
  Act.raise error

/-- The stylesheet with the new image is published. -/
def publishSheet (asset : Asset δ) (token : ℕ) : HelperAct δ Unit := do
  let css ← readFile (.sheet .gtkgreet) maxImageBytes
  let candidate ← Act.lift (lib.stylesheet css asset)
  let journal ← plan config [(.sheet .gtkgreet, some candidate)] token
  putJournal .wallpaper journal
  Act.handle (do
    apply config journal
    checkCommitted config journal) (undoPublication journal)
  removeJournal .wallpaper

/-- `publish`, after the recovery. -/
def publishAsset (data : Bytes) (token : ℕ) : HelperAct δ Unit := do
  refuse .theme
  refuse .fields
  let suffix ← Act.lift (imageSuffix data)
  pruneAssets lib
  storeAsset ⟨lib.sha256 data, suffix⟩ data
  publishSheet lib ⟨lib.sha256 data, suffix⟩ token

/-- `publish`. -/
def publish (data : Bytes) (token : ℕ) : HelperAct δ Unit := do
  recoverWallpaper
  publishAsset lib data token

end Wallpaper

section Updates

variable [DecidableEq δ] {lib : Library δ}

/-- New texts for stylesheets, each at most once: the colors of a profile, or of an update. What
rewrites colors adds no reference to an image. -/
structure Edits (lib : Library δ) where
  edits : List (Sheet × (Bytes → Except Fault Bytes))
  nodup : (edits.map Prod.fst).Nodup
  names : ∀ edit ∈ edits, ∀ raw text, edit.2 raw = .ok text →
    ∀ asset, lib.Names text asset → lib.Names raw asset

/-- One stylesheet is read and rewritten. -/
def candidate (updates : List (Name δ × Option Bytes))
    (edit : Sheet × (Bytes → Except Fault Bytes)) : HelperAct δ (List (Name δ × Option Bytes)) := do
  let raw ← readFile (.sheet edit.1) maxText
  let text ← Act.lift (edit.2 raw)
  pure (updates ++ [(.sheet edit.1, some text)])

def candidates (edits : Edits lib) : HelperAct δ (List (Name δ × Option Bytes)) :=
  Act.fold candidate [] edits.edits

/-- A pending field update is rolled back, or found complete. -/
def settleFields (journal : Journal (Name δ)) : HelperAct δ Unit :=
  match journal.phase with
  | .prepared => rollback config journal
  | .committed => checkCommitted config journal

/-- The journal that `apply_root_greeter` finds. -/
def recoverFields : HelperAct δ Unit := do
  refuse .wallpaper
  refuse .theme
  let pending ← readJournal .fields
  match pending with
  | none => pure ()
  | some journal => do
    validate sheets journal
    settleFields journal
    removeJournal .fields

/-- After an error that came before the commitment the files are rolled back. -/
def undoFields (journal : Journal (Name δ)) (error : Fault) : HelperAct δ Unit := do
  rollback config journal
  removeJournal .fields
  Act.raise error

/-- The new update. -/
def updateFields (edits : Edits lib) (token : ℕ) : HelperAct δ Unit := do
  let updates ← candidates edits
  let journal ← plan config updates token
  validate (updates.map Prod.fst) journal
  putJournal .fields journal
  Act.handle (do
    apply config journal
    putJournal .fields { journal with phase := .committed }) (undoFields journal)
  removeJournal .fields

/-- `apply_root_greeter`. -/
def applyRootGreeter (edits : Edits lib) (token : ℕ) : HelperAct δ Unit := do
  recoverFields
  updateFields edits token

end Updates

section Theme

/-- The helper's actions on a theme; `apply` has the texts of the chosen profile. -/
inductive ThemeAction (lib : Library δ)
  | apply (edits : Edits lib)
  | commit
  | rollback

variable [DecidableEq δ] {lib : Library δ}

/-- A pending theme belongs to its caller. -/
def checkCaller (uid token : ℕ) : Option (Journal (Name δ)) → HelperAct δ Unit
  | none => pure ()
  | some journal =>
    if ¬journal.Valid sheets then Act.raise .valueError
    else if journal.caller ≠ some uid ∨ journal.token ≠ token then Act.raise .runtimeError
    else pure ()

/-- One file of a journal whose new image must be there. -/
def requireNew (image : Image (Name δ)) : HelperAct δ Unit := do
  let current ← readFile image.name maxText
  if some current = image.new then pure () else Act.raise .runtimeError

/-- After an error the stylesheets come back. -/
def undoTheme (journal : Journal (Name δ)) (error : Fault) : HelperAct δ Unit := do
  rollback config journal
  removeJournal .theme
  Act.raise error

/-- The stylesheets of the profile are applied. -/
def applyTheme (uid token : ℕ) (edits : Edits lib) : HelperAct δ Unit := do
  let updates ← candidates edits
  let planned ← plan config updates token
  putJournal .theme { planned with caller := some uid }
  Act.handle (apply config { planned with caller := some uid })
    (undoTheme { planned with caller := some uid })

/-- The action, with the pending journal read. -/
def actOnTheme (uid token : ℕ) : ThemeAction lib → Option (Journal (Name δ)) → HelperAct δ Unit
  | .commit, none | .rollback, none => pure ()
  | .commit, some journal => do
    Act.forEach journal.images requireNew
    removeJournal .theme
  | .rollback, some journal => do
    rollback config journal
    removeJournal .theme
  | .apply _, some journal => Act.forEach journal.images requireNew
  | .apply edits, none => applyTheme uid token edits

/-- `main`, for a theme. -/
def theme (uid token : ℕ) (action : ThemeAction lib) : HelperAct δ Unit := do
  refuse .wallpaper
  refuse .fields
  let pending ← readJournal .theme
  checkCaller uid token pending
  actOnTheme uid token action pending

end Theme

/-- An operation of some account. -/
inductive Operation (lib : Library δ)
  | theme (uid token : ℕ) (action : ThemeAction lib)
  | fields (edits : Edits lib) (token : ℕ)
  | wallpaper (data : Bytes) (token : ℕ)

def Operation.kind {lib : Library δ} : Operation lib → Kind
  | theme _ _ _ => .theme
  | fields _ _ => .fields
  | wallpaper _ _ => .wallpaper

/-- What an operation does under the lock. -/
def Operation.run [DecidableEq δ] {lib : Library δ} : Operation lib → HelperAct δ Unit
  | .theme uid token action => Appearance.theme uid token action
  | .fields edits token => applyRootGreeter edits token
  | .wallpaper data token => publish lib data token

end Preseed.Appearance
