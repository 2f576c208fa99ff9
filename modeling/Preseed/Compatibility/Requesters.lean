import Preseed.Compatibility.Activations

/-!
# Requesters, coordinators and the masked application

`request_activation` calls open channels to a coordinator; the activations that it forwards are
started or refused by `run_masked_application`, whose answers come back through the runtime.
-/

namespace Preseed.Compatibility

/-- The coordinator, the answers of the masked application to forwarded activations (`true` where
it started one), and the channels of the `request_activation` calls. -/
structure System where
  coordinator : Instance
  handled : List (String × Bool)
  attempts : List (ℕ × Channel)
  /-- The channels that were accepted. -/
  connected : List Channel

inductive Label
  /-- A call connects. -/
  | attempt (call : ℕ) (channel : Channel)
  | move (move : Move)
  /-- The masked application takes up a forwarded activation. -/
  | handle (id : String) (started : Bool)
  /-- `__exit__`, and the next instance -/
  | restart (runId : String)

/-- `uri.removeprefix(text)`. -/
def removePrefix (text uri : String) : String :=
  if text.toList.isPrefixOf uri.toList then String.ofList (uri.toList.drop text.length) else uri

/-- `validate_uri` passes; `valid` stands for its other checks. -/
def validateUri (valid : List String → String → Bool) (schemes : List String) (uri : String) :
    Bool :=
  uri ≠ "" && valid schemes uri

/-- `activation_arguments` of Zoom, or of Discord. -/
def activationArguments (valid : List String → String → Bool) (zoom : Bool) :
    List Json → Option (List String)
  | [] => some []
  | [.str uri] =>
    if zoom then
      if uri = "--url=" then some []
      else
        let uri := removePrefix "--url=" uri
        if validateUri valid ["zoommtg", "zoomus"] uri then some ["--url=" ++ uri] else none
    else if validateUri valid ["discord"] uri then some [uri] else none
  | _ => none

theorem removePrefix_append (text uri : String) : removePrefix text (text ++ uri) = uri := by
  have hpre : text.toList.isPrefixOf (text ++ uri).toList = true := by
    rw [List.isPrefixOf_iff_prefix, String.toList_append]
    exact List.prefix_append _ _
  rw [removePrefix, if_pos hpre, String.toList_append, ← String.length_toList,
    List.drop_left, String.ofList_toList]

/-- Arguments that were approved are approved again. -/
theorem activationArguments_stable {valid : List String → String → Bool} {zoom : Bool}
    {items : List Json} {arguments : List String}
    (h : activationArguments valid zoom items = some arguments) :
    activationArguments valid zoom (arguments.map .str) = some arguments := by
  unfold activationArguments at h
  split at h
  · cases h
    rfl
  case h_2 uri =>
    cases zoom with
    | false =>
      rw [if_neg Bool.false_ne_true] at h
      split at h
      case isTrue hvalid =>
        cases h
        simp [activationArguments, hvalid]
      case isFalse => cases h
    | true =>
      rw [if_pos rfl] at h
      split at h
      · cases h
        rfl
      simp only at h
      split at h
      case isTrue hvalid =>
        cases h
        have hne : removePrefix "--url=" uri ≠ "" := by
          rintro hempty
          simp [validateUri, hempty] at hvalid
        have happend : "--url=" ++ removePrefix "--url=" uri ≠ "--url=" := by
          intro heq
          refine hne ?_
          have := removePrefix_append "--url=" (removePrefix "--url=" uri)
          rw [heq] at this
          rw [← this]
          rfl
        simp [activationArguments, happend, removePrefix_append, hvalid]
      case isFalse => cases h
  · cases h

/-- The packet of a call. -/
def activation (arguments : List String) : Packet :=
  [("type", .str "activate"), ("args", .list (arguments.map .str))]

/-- The clients of an instance are refused. -/
def Instance.exit (i : Instance) : Instance :=
  i.clients.foldl (fun i client => i.reply client.1 false) i

section Systems

-- `activation_arguments`, and the approved arguments of the calls
variable (approve : List Json → Option (List String)) (calls : ℕ → List String)

def System.start (runId : String) : System := ⟨Instance.new runId, [], [], []⟩

def System.next (s : System) : Label → System
  | .attempt call channel => { s with attempts := s.attempts ++ [(call, channel)] }
  | .move move =>
    { s with
      coordinator := final (move.run approve) s.coordinator
      connected := match move with
        | .accept _ connection => s.connected ++ [connection.channel]
        | _ => s.connected }
  | .handle id started => { s with handled := s.handled ++ [(id, started)] }
  | .restart runId =>
    { s with coordinator := { Instance.new runId with log := s.coordinator.exit.log } }

/-- What the environment does. A call connects again only where its channels before were refused;
channels and identifiers are new; the runtime acknowledges what the application answered; a
requester sends its activation. -/
def System.Enabled (s : System) : Label → Prop
  | .attempt call channel =>
    channel ∉ s.connected ∧ channel ∉ s.attempts.map Prod.snd ∧
      ∀ before, (call, before) ∈ s.attempts →
        Event.replied before false ∈ s.coordinator.accounts.log
  | .move (.accept _ connection) => connection.channel ∉ s.connected
  | .move (.runtime read) =>
    ∀ value, read.packet = some value → ∀ id accepted,
      acknowledged? value = some (id, accepted) → (id, accepted) ∈ s.handled
  | .move (.client channel read) =>
    (∀ before arguments,
      Event.forwarded read.id before arguments ∉ s.coordinator.accounts.log) ∧
    ∀ call value, (call, channel) ∈ s.attempts → read.packet = some value →
      value = activation (calls call)
  | .move (.expire _ _) => True
  | .handle id _ =>
    (∃ channel arguments, Event.forwarded id channel arguments ∈ s.coordinator.accounts.log) ∧
      id ∉ s.handled.map Prod.fst
  | .restart _ => True

/-- No activation of the channel was started. -/
def System.Unstarted (s : System) (channel : Channel) : Prop :=
  ∀ id arguments, Event.forwarded id channel arguments ∈ s.coordinator.accounts.log →
    (id, true) ∉ s.handled

/-- A client with a pending request is not read again; a client is refused by its deadline or at
the end of the instance only while its activation was not started; and the activation of a client
that was refused is not started. -/
def System.Undisturbed (s : System) : Label → Prop
  | .attempt _ _ => True
  | .move (.accept _ _) | .move (.runtime _) => True
  | .move (.client channel _) => channel ∉ s.coordinator.accounts.requests.map Prod.snd
  | .move (.expire now client) =>
    client.2 ≤ now → client.1 ∈ s.coordinator.accounts.clients → s.Unstarted client.1
  | .handle id started =>
    started = true → ∀ channel arguments,
      Event.forwarded id channel arguments ∈ s.coordinator.accounts.log →
        Event.replied channel false ∉ s.coordinator.accounts.log
  | .restart _ => ∀ channel ∈ s.coordinator.accounts.clients, s.Unstarted channel

/-- The reachable states of runs whose steps are all allowed. -/
inductive Reachable (allowed : System → Label → Prop) : System → Prop
  | start (runId : String) : Reachable allowed (System.start runId)
  | step {s : System} (label : Label) (h : Reachable allowed s)
      (henabled : s.Enabled calls label) (hallowed : allowed s label) :
      Reachable allowed (s.next approve label)

end Systems

/-- The channel that an event answers. -/
def Event.answered? : Event → Option Channel
  | replied channel _ => some channel
  | _ => none

/-- The accounts of a system whose clients, requests and answers agree. -/
structure Balanced (calls : ℕ → List String) (a : Accounts) (handled : List (String × Bool))
    (attempts : List (ℕ × Channel)) (connected : List Channel) : Prop where
  owned : ∀ id channel, (id, channel) ∈ a.requests → channel ∈ a.clients
  bounded : a.requests.length ≤ 8
  clients_connected : ∀ channel ∈ a.clients, channel ∈ connected
  clients_nodup : a.clients.Nodup
  /-- A client was not answered. -/
  unanswered : ∀ channel accepted, Event.replied channel accepted ∈ a.log → channel ∉ a.clients
  replied_connected : ∀ channel accepted, Event.replied channel accepted ∈ a.log →
    channel ∈ connected
  /-- An activation of a client is pending. -/
  pending : ∀ id channel arguments, Event.forwarded id channel arguments ∈ a.log →
    channel ∈ a.clients → (id, channel) ∈ a.requests
  forwarded : ∀ id channel, (id, channel) ∈ a.requests →
    ∃ arguments, Event.forwarded id channel arguments ∈ a.log
  forwarded_connected : ∀ id channel arguments, Event.forwarded id channel arguments ∈ a.log →
    channel ∈ connected
  /-- An identifier names one forwarded request, and a channel forwarded at most one. -/
  forwarded_id : ∀ id channel arguments channel' arguments',
    Event.forwarded id channel arguments ∈ a.log → Event.forwarded id channel' arguments' ∈ a.log →
      channel = channel' ∧ arguments = arguments'
  forwarded_channel : ∀ id id' channel arguments arguments',
    Event.forwarded id channel arguments ∈ a.log → Event.forwarded id' channel arguments' ∈ a.log →
      id = id'
  acknowledged : ∀ id accepted, Event.acknowledged id accepted ∈ a.log → (id, accepted) ∈ handled
  handled_forwarded : ∀ id started, (id, started) ∈ handled →
    ∃ channel arguments, Event.forwarded id channel arguments ∈ a.log
  handled_nodup : (handled.map Prod.fst).Nodup
  accepted : ∀ id channel arguments, Event.forwarded id channel arguments ∈ a.log →
    Event.replied channel true ∈ a.log → Event.acknowledged id true ∈ a.log
  refused : ∀ id channel arguments, Event.forwarded id channel arguments ∈ a.log →
    Event.replied channel false ∈ a.log → (id, true) ∉ handled
  answered : (a.log.filterMap Event.answered?).Nodup
  attempts_nodup : (attempts.map Prod.snd).Nodup
  /-- Of the channels of one call all but the last were refused. -/
  retried : ∀ call channel channel', (call, channel) ∈ attempts → (call, channel') ∈ attempts →
    channel ≠ channel' →
      Event.replied channel false ∈ a.log ∨ Event.replied channel' false ∈ a.log
  arguments : ∀ call id channel arguments, (call, channel) ∈ attempts →
    Event.forwarded id channel arguments ∈ a.log → arguments = calls call
  /-- A call with a URI is answered yes only through its activation. -/
  proper : ∀ call channel, (call, channel) ∈ attempts → calls call ≠ [] →
    Event.replied channel true ∈ a.log → ∃ id arguments,
      Event.forwarded id channel arguments ∈ a.log

end Preseed.Compatibility
