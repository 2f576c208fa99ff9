import Mathlib
import Preseed.Effects.Program

/-!
# Appearance transactions

`transaction` of the appearance package: journals that hold the images of the files before and
after a change, and what is done with them in a tree of files.
-/

namespace Preseed.Appearance

open Effects

/-- The contents of a file. -/
abbrev Bytes := List UInt8

/-- What a step raises. -/
inductive Fault
  | valueError | runtimeError | osError | subprocessError
  /-- An interruption, or another exception that is no error. -/
  | interrupted
  deriving DecidableEq

/-- `MAX_IMAGE_BYTES`. -/
def maxImageBytes : ℕ := 2 * 1024 ^ 2

/-- `MAX_TOTAL_IMAGE_BYTES`. -/
def maxTotalImageBytes : ℕ := 4 * 1024 ^ 2

/-- `MAX_TEXT`. -/
def maxText : ℕ := 8 * 1024 ^ 2

/-- `len(data or b'')`. -/
def size : Option Bytes → ℕ
  | none => 0
  | some data => data.length

inductive Phase
  | prepared | committed
  deriving DecidableEq

/-- A file of a journal: `old[name]` and `new[name]`. -/
structure Image (ν : Type) where
  name : ν
  old : Option Bytes
  new : Option Bytes
  deriving DecidableEq

def Image.size {ν : Type} (image : Image ν) : ℕ := Appearance.size image.old + Appearance.size image.new

/-- A journal. `caller` is set by the greeter helper. -/
structure Journal (ν : Type) where
  token : ℕ
  phase : Phase
  caller : Option ℕ
  images : List (Image ν)
  deriving DecidableEq

/-- The size of all images. -/
def totalSize {ν : Type} (images : List (Image ν)) : ℕ := (images.map Image.size).sum

/-- A tree of files, of which `read` and `write` are operations of an interface. -/
structure Tree (ι : Interface) (ν : Type) where
  /-- `read(name, limit, missing=True)`. -/
  read : ν → ℕ → Act ι Unit Fault (Option Bytes)
  /-- `write(name, data)`. -/
  write : ν → Option Bytes → Act ι Unit Fault Unit

section Transaction

variable {ι : Interface} {ν : Type} [DecidableEq ν] (tree : Tree ι ν)

/-- One update of `plan`. -/
def planUpdate (planned : List (Image ν) × ℕ) (update : ν × Option Bytes) :
    Act ι Unit Fault (List (Image ν) × ℕ) := do
  if maxImageBytes < size update.2 then Act.raise .valueError
  else do
    let before ← tree.read update.1 maxImageBytes
    if before = update.2 then pure planned
    else if maxTotalImageBytes < planned.2 + (size before + size update.2) then
      Act.raise .valueError
    else
      pure (planned.1 ++ [⟨update.1, before, update.2⟩],
        planned.2 + (size before + size update.2))

/-- `plan`. -/
def plan (updates : List (ν × Option Bytes)) (token : ℕ) : Act ι Unit Fault (Journal ν) := do
  let planned ← Act.fold (planUpdate tree) ([], 0) updates
  pure ⟨token, .prepared, none, planned.1⟩

/-- What `validate` accepts. -/
def Journal.Valid (allowed : List ν) (journal : Journal ν) : Prop :=
  (∀ image ∈ journal.images, image.name ∈ allowed ∧
    size image.old ≤ maxImageBytes ∧ size image.new ≤ maxImageBytes) ∧
  totalSize journal.images ≤ maxTotalImageBytes

instance (allowed : List ν) (journal : Journal ν) : Decidable (journal.Valid allowed) :=
  inferInstanceAs (Decidable (_ ∧ _))

/-- `validate`. -/
def validate (allowed : List ν) (journal : Journal ν) : Act ι Unit Fault Unit :=
  if journal.Valid allowed then pure () else Act.raise .valueError

/-- One file of `check_current`. -/
def checkImage (rollback : Bool) (image : Image ν) : Act ι Unit Fault Unit := do
  let current ← tree.read image.name maxText
  if current = image.old ∨ rollback = true ∧ current = image.new then pure ()
  else Act.raise .runtimeError

/-- `check_current`. -/
def checkCurrent (rollback : Bool) (journal : Journal ν) : Act ι Unit Fault Unit :=
  Act.forEach journal.images (checkImage tree rollback)

/-- One file of `check_committed`. -/
def checkNew (image : Image ν) : Act ι Unit Fault Unit := do
  let current ← tree.read image.name maxText
  if current = image.new then pure () else Act.raise .runtimeError

/-- `check_committed`. -/
def checkCommitted (journal : Journal ν) : Act ι Unit Fault Unit :=
  Act.forEach journal.images (checkNew tree)

/-- `apply`. -/
def apply (journal : Journal ν) : Act ι Unit Fault Unit := do
  checkCurrent tree false journal
  Act.forEach journal.images fun image => tree.write image.name image.new

/-- One file of `rollback`. -/
def restoreImage (image : Image ν) : Act ι Unit Fault Unit := do
  let current ← tree.read image.name maxText
  if current = image.old then pure () else tree.write image.name image.old

/-- `rollback`. -/
def rollback (journal : Journal ν) : Act ι Unit Fault Unit := do
  checkCurrent tree true journal
  Act.forEach journal.images.reverse (restoreImage tree)

end Transaction

end Preseed.Appearance
