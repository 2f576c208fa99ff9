import Mathlib.Data.Rat.Defs
import Preseed.Compatibility.Outcome
import Preseed.Effects.Raising

/-!
# The compatibility coordinator

`CompatibilityInstance.service`: clients and the runtime send records to the coordinator, which
forwards activations to the runtime and records the outcome of the run.
-/

namespace Preseed.Compatibility

open Effects

/-- A connected socket. -/
abbrev Channel := ℕ

/-- What happened at the coordinator. -/
inductive Event
  /-- `self.outcome` was set. -/
  | recorded (o : Outcome)
  /-- The runtime reported its outcome. -/
  | outcome (o : Outcome)
  /-- The runtime reported its cleanup. -/
  | cleanup (failed : Bool)
  /-- The compositor reported its outcome. -/
  | compositor (o : Outcome)
  | forwarded (id : String) (channel : Channel) (arguments : List String)
  | acknowledged (id : String) (accepted : Bool)
  | replied (channel : Channel) (accepted : Bool)
  deriving DecidableEq

/-- `CompatibilityInstance`, with a log. -/
structure Instance where
  runId : String
  runtime : Option Channel
  /-- The clients, with their deadlines. -/
  clients : List (Channel × ℚ)
  requests : List (String × Channel)
  outcome : Option Outcome
  running : Bool
  stopSignal : Option ℕ
  cleanupFailed : Bool
  log : List Event

abbrev Session := EStateM Failure Instance

/-- `REQUEST_TIMEOUT`. -/
def requestTimeout : ℚ := 8

/-- A connection of the listener: the peer has the same user, and took the greeting. -/
structure Connection where
  channel : Channel
  own : Bool
  greeted : Bool

/-- One read of a channel: the packet, unless the channel failed, and how the calls on the way of
that packet end. -/
structure Read where
  packet : Option Packet
  /-- `_require_helper` passes. -/
  helper : Bool
  /-- `send_packet` succeeds. -/
  sent : Bool
  /-- `uuid.uuid4().hex`. -/
  id : String

def Instance.note (i : Instance) (event : Event) : Instance := { i with log := i.log ++ [event] }

/-- `self.outcome` is set. -/
def Instance.record (i : Instance) (o : Outcome) : Instance :=
  { i with outcome := some o, log := i.log ++ [.recorded o] }

/-- `_drop`. -/
def Instance.drop (i : Instance) (channel : Channel) : Instance :=
  { i with clients := i.clients.filter fun client => client.1 ≠ channel }

/-- `_reply`; a channel that is no client is closed. -/
def Instance.reply (i : Instance) (channel : Channel) (accepted : Bool) : Instance :=
  if channel ∈ i.clients.map Prod.fst then
    { i.drop channel with log := i.log ++ [Event.replied channel accepted] }
  else i

/-- A step that only changes the instance. -/
def update (f : Instance → Instance) : Session Unit := modifyGet fun i => ((), f i)

/-- A call that has to succeed. -/
def require (succeeds : Bool) : Session Unit :=
  if succeeds then pure () else throw .protocol

/-- `listener.accept` and the greeting. -/
def acceptClient (now : ℚ) (connection : Connection) : Session Unit :=
  update fun i =>
    if 8 ≤ i.clients.length ∨ connection.own = false ∨ connection.greeted = false then i
    else { i with clients := i.clients ++ [(connection.channel, now + requestTimeout)] }

/-- `re.fullmatch(r"[0-9a-f]{32}", id)`. -/
def isIdentifier (id : String) : Bool :=
  id.length == 32 && id.toList.all fun c => ('0' ≤ c && c ≤ '9') || ('a' ≤ c && c ≤ 'f')

/-- The request of an acknowledgement is answered. -/
def Instance.acknowledge (i : Instance) (id : String) (accepted : Bool) : Instance :=
  let i' := { i with
    requests := i.requests.filter (fun request => request.1 ≠ id)
    log := i.log ++ [Event.acknowledged id accepted] }
  match i.requests.lookup id with
  | some channel => i'.reply channel accepted
  | none => i'

/-- The `failed` field of a cleanup record. -/
def boolean? : Option Json → Option Bool
  | some (.bool b) => some b
  | _ => none

/-- An identifier of an acknowledgement. -/
def identifier? : Option Json → Option String
  | some (.str s) => if isIdentifier s then some s else none
  | _ => none

/-- A record of the runtime. -/
def runtimeRecord (value : Packet) : Session Unit := do
  let i ← get
  if (hasKeys value ["type"] ∧ hasText value "type" "running" = true) ∧ i.running = false ∧
      i.outcome = none then
    set { i with running := true }
  else if hasText value "type" "outcome" = true ∧ i.outcome = none then
    match Outcome.fromPacket value with
    | .ok o => set ((i.note (.outcome o)).record o)
    | .error e => throw e
  else
    match i.outcome, boolean? (value.lookup "failed"),
      decide (hasKeys value ["type", "failed"] ∧ hasText value "type" "cleanup" = true) with
    | some o, some failed, true =>
      set (if failed then (i.note (.cleanup true)).record o.cleanupFailed
        else i.note (.cleanup false))
    | _, _, _ =>
      if hasKeys value ["type", "id", "accepted"] ∧ hasText value "type" "activation" = true then
        match identifier? (value.lookup "id"), boolean? (value.lookup "accepted") with
        | some id, some accepted => set (i.acknowledge id accepted)
        | _, _ => throw .protocol
      else throw .protocol

/-- The outcome that a record of the compositor states. -/
def compositorObserved (running : Bool) (value : Packet) : Except Failure Outcome :=
  let result := natural? (value.lookup "result")
  Outcome.make (some (if result = some 0 then .normalExit
      else if running then .infrastructureFailed else .startupFailed))
    result (natural? (value.lookup "signal")) (cleanup? (value.lookup "cleanup"))

/-- The result of the compositor is recorded, unless the runtime came first. -/
def Instance.observeResult (i : Instance) (observed : Outcome) : Instance :=
  if observed.result ≠ 0 ∧ i.outcome = none then i.record observed else i

/-- The cleanup of the compositor. -/
def Instance.observeCleanup (i : Instance) (observed : Outcome) : Instance :=
  if observed.cleanup = false then
    match i.outcome with
    | some o => { i with cleanupFailed := true }.record o.cleanupFailed
    | none => { i with cleanupFailed := true }
  else i

/-- `_compositor_outcome`. -/
def compositorOutcome (value : Packet) : Session Unit := do
  let i ← get
  if hasKeys value ["type", "run_id", "result", "signal", "cleanup"] ∧
      hasText value "run_id" i.runId = true then
    match compositorObserved i.running value with
    | .ok observed =>
      set (((i.observeResult observed).observeCleanup observed).note (.compositor observed))
    | .error e => throw e
  else throw .protocol

/-- The argument list of an activation. -/
def arguments? : Option Json → Option (List Json)
  | some (.list items) => some items
  | _ => none

section Service

-- `activation_arguments`
variable (approve : List Json → Option (List String))

/-- An activation of a client. -/
def activate (channel : Channel) (value : Packet) (read : Read) : Session Unit := do
  let i ← get
  match arguments? (value.lookup "args") with
  | none => throw .protocol
  | some items =>
    match approve items with
    | none => throw .protocol
    | some arguments =>
      if i.outcome ≠ none then set (i.reply channel false)
      else if arguments = [] then set (i.reply channel true)
      else if i.running = false ∨ i.runtime = none then set (i.reply channel false)
      else if 8 ≤ i.requests.length then set (i.reply channel false)
      else if read.sent then
        set { i with
          requests := i.requests ++ [(read.id, channel)]
          log := i.log ++ [Event.forwarded read.id channel arguments] }
      else throw .protocol

/-- The runtime connects. -/
def registerRuntime (channel : Channel) (read : Read) : Session Unit := do
  require read.helper
  update fun i => { i.drop channel with runtime := some channel }
  require read.sent

/-- A record of a client. -/
def clientRecord (channel : Channel) (value : Packet) (read : Read) : Session Unit := do
  let i ← get
  if (hasKeys value ["type", "run_id"] ∧ hasText value "type" "runtime" = true ∧
      hasText value "run_id" i.runId = true) ∧ i.runtime = none then
    registerRuntime channel read
  else if hasText value "type" "compositor-outcome" = true then do
    require read.helper
    compositorOutcome value
    require read.sent
    update fun i => i.drop channel
  else if hasKeys value ["type", "args"] ∧ hasText value "type" "activate" = true then
    activate approve channel value read
  else set (i.reply channel false)

/-- A record that failed. -/
def recordFailed (channel : Channel) : Session Unit := do
  let i ← get
  if i.runtime = some channel then
    set { i with runtime := none }
    require i.outcome.isSome
  else set (i.reply channel false)

/-- One read of the runtime, while it is connected. -/
def readRuntime (read : Read) : Session Unit := do
  let i ← get
  match i.runtime with
  | none => pure ()
  | some channel =>
    rescue (match read.packet with
      | none => throw .protocol
      | some value => runtimeRecord value) fun _ => recordFailed channel

/-- One read of a client; a client that was dropped is closed. -/
def readClient (channel : Channel) (read : Read) : Session Unit := do
  let i ← get
  rescue (match decide (channel ∈ i.clients.map Prod.fst), read.packet with
    | true, some value => clientRecord approve channel value read
    | _, _ => throw .protocol) fun _ => recordFailed channel

/-- A client whose deadline has passed is refused, and its requests are forgotten. -/
def Instance.expire (i : Instance) (now : ℚ) (client : Channel × ℚ) : Instance :=
  if client.2 ≤ now then
    let i := i.reply client.1 false
    { i with requests := i.requests.filter fun request => request.2 ≠ client.1 }
  else i

/-- What the environment does during one call of `service`. -/
structure Round where
  now : ℚ
  /-- The lock and the endpoint are those of the instance. -/
  intact : Bool
  connections : List Connection
  runtimeReads : List Read
  clientReads : List (Channel × Read)

/-- The checks before the records. -/
def acceptRound (round : Round) : Session Unit := do
  let i ← get
  if i.stopSignal ≠ none then throw .interrupted
  else require round.intact

/-- The records of one call. -/
def serveRecords (round : Round) : Session Unit := do
  (round.connections.take 8).forM (acceptClient round.now)
  (round.runtimeReads.take 16).forM readRuntime
  round.clientReads.forM fun item => readClient approve item.1 item.2
  update fun i => i.clients.foldl (fun i' client => i'.expire round.now client) i

/-- `service`. -/
def service (round : Round) : Session Unit := do
  acceptRound round
  serveRecords approve round

end Service

/-- A new instance. -/
def Instance.new (runId : String) : Instance where
  runId := runId
  runtime := none
  clients := []
  requests := []
  outcome := none
  running := false
  stopSignal := none
  cleanupFailed := false
  log := []

end Preseed.Compatibility
