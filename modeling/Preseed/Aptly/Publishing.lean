import Mathlib.Data.List.Basic

/-!
# Aptly publication receipts

`aptly-publish-local`, its `--reconcile` and the managed `aptly` of `aptly-publishing`,
under the publication lock. A started command holds the lock until it ends, also when
the process that started it has died.
-/

namespace Preseed.Aptly

/-- The managed configuration. -/
structure Context where
  distributions : List String
  component : String
  publishTarget : String
  publicBaseUrl : String
  signingKey : String
  deriving DecidableEq

inductive Status
  | attempting | committed | unknown | verified
  deriving DecidableEq

/-- The publication receipt. -/
structure Receipt where
  status : Status
  snapshot : String
  distribution : String
  component : String
  target : String
  publicBaseUrl : String
  signingKey : String
  inreleaseSha256 : Option String
  deriving DecidableEq

/-- The same publication. -/
def Receipt.same (r r' : Receipt) : Prop :=
  r.snapshot = r'.snapshot ∧ r.distribution = r'.distribution ∧ r.component = r'.component ∧
    r.target = r'.target ∧ r.publicBaseUrl = r'.publicBaseUrl ∧ r.signingKey = r'.signingKey

/-! ## The receipt -/

def hexDigits (length : ℕ) (chars : List Char) : Bool :=
  chars.length = length && chars.all fun c => c.isDigit || ('a' ≤ c && c ≤ 'f')

def digits (length : ℕ) (chars : List Char) : Bool :=
  chars.length = length && chars.all Char.isDigit

/-- `[0-9]{8}T[0-9]{6}Z-[0-9a-f]{12}`. -/
def snapshotSuffix (chars : List Char) : Bool :=
  digits 8 (chars.take 8) && (chars.drop 8).take 1 = ['T'] && digits 6 ((chars.drop 9).take 6) &&
    (chars.drop 15).take 2 = ['Z', '-'] && hexDigits 12 (chars.drop 17)

def snapshotName (distribution suffix : String) : String :=
  "local-" ++ distribution ++ "-" ++ suffix

/-- The name is one that `aptly_publish_local_locked` gives. -/
def snapshotMatches (distribution snapshot : String) : Bool :=
  let stem := (snapshotName distribution "").toList
  stem.isPrefixOf snapshot.toList && snapshotSuffix (snapshot.toList.drop stem.length)

/-- The receipt passes the checks of `publication_receipt`. -/
def Receipt.agrees (context : Context) (r : Receipt) : Bool :=
  context.distributions.contains r.distribution && snapshotMatches r.distribution r.snapshot &&
    r.target = context.publishTarget && r.publicBaseUrl = context.publicBaseUrl &&
    r.signingKey = context.signingKey && r.component = context.component &&
    (r.status ≠ .verified || r.inreleaseSha256.any fun digest => hexDigits 64 digest.toList)

/-- `publication_receipt`, of the file; `none` is a failure. -/
def publicationReceipt (context : Context) : Option Receipt → Option (Option Receipt)
  | none => some none
  | some receipt => if receipt.agrees context then some (some receipt) else none

/-- `require_reconciled_publication` returns. -/
def requireReconciled (context : Context) (file : Option Receipt) : Bool :=
  match publicationReceipt context file with
  | none => false
  | some none => true
  | some (some receipt) => receipt.status = .verified

/-! ## Commands -/

def readOnlyKinds : List String := ["publish", "repo", "snapshot", "mirror", "package", "config"]

def readOnlyActions : List String := ["show", "list", "search"]

/-- The arguments that `run_aptly` takes for read only. -/
def readOnly : List String → Bool
  | ["version"] => true
  | kind :: action :: _ => readOnlyKinds.contains kind && readOnlyActions.contains action
  | _ => false

/-- The publish command of a receipt. -/
def publishArguments (published : Bool) (r : Receipt) : List String :=
  if published then
    ["publish", "switch", "-component=" ++ r.component, "-gpg-key=" ++ r.signingKey,
      "-version=" ++ r.snapshot, r.distribution, r.target, r.snapshot]
  else
    ["publish", "snapshot", "-distribution=" ++ r.distribution, "-component=" ++ r.component,
      "-gpg-key=" ++ r.signingKey, "-version=" ++ r.snapshot, "-acquire-by-hash", r.snapshot,
      r.target]

/-- A command that was started with the lock. -/
inductive Command
  /-- `run_aptly` was replaced by the native tool. -/
  | native (arguments : List String)
  /-- The publish command of `aptly_publish_local_locked`. -/
  | publish (arguments : List String)
  deriving DecidableEq

/-- The command may change the remote publication. -/
def Command.mutates : Command → Bool
  | native arguments => !readOnly arguments
  | publish _ => true

/-! ## Verification -/

/-- A public InRelease, with the fingerprints of its valid signatures. -/
structure Release where
  sha256 : String
  signers : List String
  version : String
  codename : String
  suite : String
  components : List String
  deriving DecidableEq

/-- `verify_public_inrelease`, of the expected snapshot. -/
def Release.confirms (context : Context) (receipt : Receipt) (release : Release) : Bool :=
  (release.signers.map String.toUpper).contains context.signingKey.toUpper &&
    release.version = receipt.snapshot && release.codename = receipt.distribution &&
    release.suite = receipt.distribution && release.components = [context.component]

/-- The answer of `publish show -json`. -/
structure LocalRecord where
  distribution : String
  version : String
  sourceKind : String
  /-- Components and names. -/
  sources : List (String × String)
  deriving DecidableEq

/-- The comparison of `verify_publication`. -/
def LocalRecord.confirms (context : Context) (receipt : Receipt) (record : LocalRecord) : Bool :=
  record.distribution = receipt.distribution && record.version = receipt.snapshot &&
    record.sourceKind = "snapshot" && record.sources = [(context.component, receipt.snapshot)]

/-! ## Processes -/

/-- What the process with the lock does next. -/
inductive Pc
  /-- `run_aptly`. -/
  | native (arguments : List String)
  /-- `aptly_publish_local --reconcile`. -/
  | reconciling (distribution : String)
  /-- `aptly_publish_local`. -/
  | publishing (distribution : String)
  /-- The local commands, up to the snapshot. -/
  | preparing (distribution : String)
  /-- The attempting receipt is saved. -/
  | attempting (receipt : Receipt) (published : Bool)
  /-- The publish command is started. -/
  | starting (receipt : Receipt) (published : Bool)
  | waiting (receipt : Receipt)
  /-- The unknown or the committed receipt is saved. -/
  | failing (receipt : Receipt)
  | committing (receipt : Receipt)
  /-- `verify_publication`: the public Release, the local record, the verified receipt. -/
  | fetching (receipt : Receipt) (reconcile : Bool)
  | showing (receipt : Receipt) (release : Release) (reconcile : Bool)
  | verifying (receipt : Receipt) (release : Release) (record : LocalRecord)

/-- The entry points. -/
inductive Invocation
  | aptly (arguments : List String)
  | reconcile (distribution : String)
  | publish (distribution : String)

def Invocation.entry : Invocation → Pc
  | aptly arguments => .native arguments
  | reconcile distribution => .reconciling distribution
  | publish distribution => .publishing distribution

structure System where
  /-- The receipt file. -/
  receipt : Option Receipt
  /-- The process with the lock. -/
  holder : Option (Context × Pc)
  /-- A started command, which holds the lock as well. -/
  running : Option Command

/-- How `save_publication_receipt` goes: it may raise after the file was replaced. -/
inductive Saved
  | ok | fails | failsLate
  deriving DecidableEq

inductive Event
  /-- A process takes the lock. -/
  | acquire (context : Context) (invocation : Invocation)
  /-- The process looks at the receipt, and fails or goes on. -/
  | check
  /-- The snapshot of the local commands, and whether the distribution is published. -/
  | prepared (suffix : String) (published : Bool)
  | save (saved : Saved)
  /-- The publish command is started. -/
  | start
  /-- The started command ends. -/
  | ends (succeeded : Bool)
  /-- The process gives up on the command: a timeout, a cancellation, a failed start. -/
  | cancel
  | fetch (release : Option Release)
  | shows (record : Option LocalRecord)
  /-- The process dies or raises. -/
  | crash

/-- The receipt that the process saves next, and what it does after that. -/
def Pc.saves : Pc → Option (Receipt × Option Pc)
  | attempting receipt published => some (receipt, some (.starting receipt published))
  | failing receipt => some ({ receipt with status := .unknown }, none)
  | committing receipt =>
      some ({ receipt with status := .committed },
        some (.fetching { receipt with status := .committed } false))
  | verifying receipt release _ =>
      some ({ receipt with status := .verified, inreleaseSha256 := some release.sha256 }, none)
  | _ => none

def attemptingReceipt (context : Context) (distribution suffix : String) : Receipt where
  status := .attempting
  snapshot := snapshotName distribution suffix
  distribution := distribution
  component := context.component
  target := context.publishTarget
  publicBaseUrl := context.publicBaseUrl
  signingKey := context.signingKey
  inreleaseSha256 := none

/-- A failed verification: `--reconcile` raises, a publication polls again. -/
def retry (receipt : Receipt) (reconcile : Bool) : Option Pc :=
  if reconcile then none else some (.fetching receipt false)

/-- One event, if it can happen. -/
def System.step (s : System) : Event → Option System
  | .acquire context invocation =>
      if s.holder.isNone ∧ s.running = none then
        some { s with holder := some (context, invocation.entry) }
      else none
  | .check =>
      match s.holder with
      | some (context, .native arguments) =>
          if readOnly arguments ∨ requireReconciled context s.receipt then
            some { s with holder := none, running := some (.native arguments) }
          else some { s with holder := none }
      | some (context, .reconciling distribution) =>
          match publicationReceipt context s.receipt with
          | some (some receipt) =>
              if receipt.distribution = distribution then
                some { s with holder := some (context, .fetching receipt true) }
              else some { s with holder := none }
          | _ => some { s with holder := none }
      | some (context, .publishing distribution) =>
          if requireReconciled context s.receipt ∧ distribution ∈ context.distributions then
            some { s with holder := some (context, .preparing distribution) }
          else some { s with holder := none }
      | _ => none
  | .prepared suffix published =>
      match s.holder with
      | some (context, .preparing distribution) =>
          some { s with
            holder := some (context,
              .attempting (attemptingReceipt context distribution suffix) published) }
      | _ => none
  | .save saved =>
      match s.holder with
      | some (context, pc) =>
          match pc.saves with
          | some (receipt, next) =>
              match saved with
              | .ok => some { s with
                  receipt := some receipt
                  holder := next.map fun pc => (context, pc) }
              | .fails => some { s with holder := none }
              | .failsLate => some { s with receipt := some receipt, holder := none }
          | none => none
      | none => none
  | .start =>
      match s.holder with
      | some (context, .starting receipt published) =>
          some { s with
            holder := some (context, .waiting receipt)
            running := some (.publish (publishArguments published receipt)) }
      | _ => none
  | .ends succeeded =>
      match s.running with
      | some _ =>
          match s.holder with
          | some (context, .waiting receipt) =>
              some { s with
                running := none
                holder := some (context, if succeeded then .committing receipt
                  else .failing receipt) }
          | _ => some { s with running := none }
      | none => none
  | .cancel =>
      match s.holder with
      | some (context, .starting receipt _) | some (context, .waiting receipt) =>
          some { s with holder := some (context, .failing receipt) }
      | _ => none
  | .fetch release =>
      match s.holder with
      | some (context, .fetching receipt reconcile) =>
          match release with
          | some release =>
              if release.confirms context receipt then
                some { s with holder := some (context, .showing receipt release reconcile) }
              else
                some { s with holder := (retry receipt reconcile).map fun pc => (context, pc) }
          | none => some { s with holder := (retry receipt reconcile).map fun pc => (context, pc) }
      | _ => none
  | .shows record =>
      match s.holder with
      | some (context, .showing receipt release reconcile) =>
          match record with
          | some record =>
              if record.confirms context receipt then
                some { s with holder := some (context, .verifying receipt release record) }
              else
                some { s with holder := (retry receipt reconcile).map fun pc => (context, pc) }
          | none => some { s with holder := (retry receipt reconcile).map fun pc => (context, pc) }
      | _ => none
  | .crash => some { s with holder := none }

/-- No publication was attempted. -/
def System.initial : System where
  receipt := none
  holder := none
  running := none

end Preseed.Aptly
