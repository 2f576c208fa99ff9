import Preseed.HardwareTuning.Daemon

/-!
# Manual selections and the activity of the seat

The broker's work under its lock, cut into parts: a request is checked, admitted and
finished, and the monitor and the connections reconcile in between. `helpers` lets
every helper answer anything, and records for each manual selection who has made it
and whether the seat has been seen inactive since.
-/

namespace Preseed.HardwareTuning

open Effects

/-! ### Requests in parts -/

namespace Broker

/-- The checks at the beginning of `Broker.action`. -/
def checkPeer (request : ControlRequest) (peer : Peer) : BrokerAct Unit :=
  if request.rootOnly ∧ peer ≠ .root then
    Act.raise (tuningError "sleep coordination is root-only")
  else checkSeat request peer

/-- `Broker.action` between its checks and a manual selection: whether it goes on. -/
def allowManual (config : Config) (requiresOwner : Bool) : BrokerAct Bool := do
  Act.modify clearHolds
  let s ← Act.get
  if s.policyRelease.isSome then
    Act.raise (tuningError "a policy handback is pending; complete Stop or Reset first")
  else if requiresOwner ∧ s.claimed = false then do
    Act.modify fun s => { s with policyRelease := some .stop }
    save
    Act.handleIf (do acquire config; pure true) Failure.isException fun exc => do
      giveUp config false exc
      save
      pure false
  else pure true

/-- What `Broker.action` does before the change that was asked for: whether it goes on. -/
def prepareChange (config : Config) (request : ControlRequest) : BrokerAct Bool :=
  match request with
  | .manual _ _ _ => allowManual config (request.requiresOwner config)
  | .powerProfile _ => do
    preparePowerProfile config
    pure true
  | _ => pure true

/-- `Broker.action` between its checks and the change that was asked for: whether it goes on. -/
def allow (config : Config) (request : ControlRequest) (peer : Peer) : BrokerAct Bool := do
  askPolicy request
  let s ← Act.get
  if request.requiresOwner config ∧ peer ≠ .root ∧ request.confirmed = false ∧
      (request.enablesBoot ∨ s.claimed = false) then
    Act.raise (tuningError "policy handover needs confirmation; use the launcher confirmation or --confirm-policy-owner")
  else prepareChange config request

/-- `Broker.public_profile` once the policy is prepared. -/
def publish (config : Config) (profile : Profile) : BrokerAct Unit := do
  Act.modify clearHolds
  Act.modify fun s => { s with manual := fun _ => some profile, faults := fun _ => none }
  save
  reconcile config false
  let s ← Act.get
  Act.when (s.anyFault config ∨ s.recoveryPending ≠ ∅ ∨
      ∃ vendor ∈ config.vendors, s.applied vendor ≠ some profile)
    (Act.raise (tuningError "custom profile could not be applied; inspect hardware tuning status"))

/-- The change that was asked for. -/
def finish (config : Config) : ControlRequest → BrokerAct Unit
  | .manual vendor profile _ => selectManual config vendor profile
  | .powerProfile profile => publish config profile
  | request => perform config request

end Broker

/-! ### What is known of the selections -/

/-- What is known of a manual selection. -/
structure Mark where
  /-- Who has made it. -/
  maker : Peer
  /-- The seat has been seen inactive since. -/
  lapsed : Bool
  /-- No reconcile has looked at the seat since it was seen inactive. -/
  unheeded : Bool
  deriving DecidableEq

/-- The mark after a look at the seat outside of a reconcile. -/
def Mark.checked (mark : Mark) (active : Bool) : Mark :=
  { mark with lapsed := mark.lapsed || !active, unheeded := mark.unheeded || !active }

/-- The mark after the look at the seat of a reconcile. -/
def Mark.reconciled (mark : Mark) (active : Bool) : Mark :=
  { mark with lapsed := mark.lapsed || !active, unheeded := false }

/-- What is known of the manual selections of the vendors. -/
abbrev Marks : Type := Vendor → Option Mark

/-- The request selects a profile of a vendor. -/
def ControlRequest.selects : ControlRequest → Vendor → Bool
  | .manual vendor _ _, v => v = vendor
  | .powerProfile _, _ => true
  | _, _ => false

/-- The marks when a request selects. -/
def Marks.selected (g : Marks) (request : ControlRequest) (peer : Peer) : Marks := fun vendor =>
  if request.selects vendor then some ⟨peer, false, false⟩ else g vendor

/-- Every helper may answer anything. The looks of a reconcile at the seat may be limited. -/
def helpers (heeds : Broker → Marks → Bool → Prop) (reconciles : Bool) :
    Environment Services Broker Marks := fun g s op =>
  match op with
  | .seatActive => fun (active : Bool) g' =>
    if reconciles then heeds s g active ∧ g' = fun vendor => (g vendor).map (·.reconciled active)
    else g' = fun vendor => (g vendor).map (·.checked active)
  | .reset _ | .apply _ _ | .health _ | .report _ | .policy _ | .save _ | .load | .onAc
  | .autostartLink => fun _ g' => g' = g

/-- A manual selection of the desktop user is in place. -/
def Broker.HasMark (s : Broker) (g : Marks) (vendor : Vendor) (mark : Mark) : Prop :=
  (s.manual vendor).isSome ∧ g vendor = some mark ∧ mark.maker = .desktop

/-- A look of a reconcile at the seat is heeded: if it is the first to find the seat inactive, the
seat was active at the reconcile before, and if it is not the first, it finds it inactive too. -/
def Heeded (s : Broker) (g : Marks) (active : Bool) : Prop :=
  ∀ vendor mark, s.HasMark g vendor mark →
    (active = false → s.wasActive = true) ∧ (mark.unheeded = true → active = false)

/-- A manual selection of the desktop user is in place although the seat has been seen inactive
since it was made. -/
def Broker.Outlived (s : Broker) (g : Marks) (vendor : Vendor) : Prop :=
  ∃ mark, s.HasMark g vendor mark ∧ mark.lapsed = true

/-- The operation applies the manual selection of a vendor. -/
def Broker.AppliesManual (s : Broker) (vendor : Vendor) (op : Service) : Prop :=
  ∃ profile, op = .apply vendor profile ∧ s.manual vendor = some profile ∧ s.held = false

/-! ### Runs of the broker -/

/-- A section of the broker under its lock, or a part of one. -/
inductive Part
  | check (request : ControlRequest) (peer : Peer)
  | allow (request : ControlRequest) (peer : Peer)
  | finish (request : ControlRequest) (peer : Peer)
  | prepareHold (peer : Peer) (profile : Profile)
  | hold (profile : Profile)
  | lease (vendor : Vendor) (profile : Profile)
  | release (lease : Lease)
  | poll

/-- What the section under the lock has come to. -/
inductive Stage
  | idle
  | checked (request : ControlRequest) (peer : Peer)
  | admitted (request : ControlRequest) (peer : Peer)
  | prepared (profile : Profile)

namespace Part

/-- When the part begins. -/
def begins : Part → Stage
  | check _ _ | prepareHold _ _ | lease _ _ | release _ | poll => .idle
  | allow request peer => .checked request peer
  | finish request peer => .admitted request peer
  | hold profile => .prepared profile

/-- What follows the part. -/
def ends : Part → Except Failure Bool → Stage
  | check request peer, .ok true => .checked request peer
  | allow request peer, .ok true => .admitted request peer
  | prepareHold _ profile, .ok true => .prepared profile
  | _, _ => .idle

/-- The program of the part; the result says whether the section goes on. -/
def program (config : Config) : Part → BrokerAct Bool
  | check request peer => do
    Broker.checkPeer request peer
    pure true
  | allow request peer => Broker.allow config request peer
  | finish request _ => do
    Broker.finish config request
    pure false
  | prepareHold peer _ => do
    Broker.prepareHold config peer
    pure true
  | hold profile => do
    Act.modify fun s => s.grantHold profile
    Broker.reconcileHold config
    pure false
  | lease vendor profile => do
    let s ← Act.get
    let s ← Act.lift (s.grantLease vendor profile)
    Act.modify fun _ => s
    Broker.reconcile config false
    pure false
  | release held => do
    let s ← Act.get
    let s ← Act.lift (s.release held)
    Act.modify fun _ => s
    Broker.reconcile config false
    pure false
  | poll => do
    Broker.reconcile config true
    pure false

/-- The part looks at the seat in a reconcile only. -/
def reconciles : Part → Bool
  | check _ _ | prepareHold _ _ => false
  | allow _ _ | finish _ _ | hold _ | lease _ _ | release _ | poll => true

/-- The marks at the beginning of the part. -/
def marks (g : Marks) : Part → Marks
  | finish request peer => g.selected request peer
  | _ => g

/-- The part is under way: it has been begun in a memory, and has come to a program. -/
def Running (part : Part) (config : Config) (heeds : Broker → Marks → Bool → Prop) (s : Broker)
    (g g' : Marks) (p : Program Services Broker (Except Failure Bool × Broker)) : Prop :=
  Program.Steps (helpers heeds part.reconciles) (part.marks g) (part.program config s) g' p

end Part

/-- The stages, memories and marks between the parts of all runs. A run begins in any memory; of
its manual selections nothing is known. The status reports the seat at any time. -/
inductive Seated (config : Config) (heeds : Broker → Marks → Bool → Prop) :
    Stage → Broker → Marks → Prop
  | start (s : Broker) : Seated config heeds .idle s fun _ => none
  | status {stage : Stage} {s : Broker} {g : Marks} (before : Seated config heeds stage s g)
      (active : Bool) :
    Seated config heeds stage s fun vendor => (g vendor).map (·.checked active)
  | part {part : Part} {s s' : Broker} {g g' : Marks} {x : Except Failure Bool}
      (before : Seated config heeds part.begins s g)
      (run : part.Running config heeds s g g' (.done (x, s'))) :
    Seated config heeds (part.ends x) s' g'

end Preseed.HardwareTuning
