import Mathlib.Data.Rat.Defs

/-!
# Egress of an application lease

`Network.update_route` and `Network.refresh_route` of the application network service: the
firewall elements of a lease follow its route, while its host link is down.
-/

namespace Preseed.AppVeth

/-- What `route` returns: the interface, the source address and the MTU. -/
structure Route where
  iface : String
  source : String
  mtu : ℕ
  deriving DecidableEq

/-- `route[:2]`. -/
def Route.identity (route : Route) : String × String := (route.iface, route.source)

/-- `peer_port` of a policy. -/
inductive PeerPortPolicy
  | absent
  | fixed (port : ℕ)
  | byLink (ethernet wifi : ℕ)
  deriving DecidableEq

/-- What is fixed for a lease. Only a pinned application has a peer port. -/
structure Lease where
  /-- The host link. -/
  name : String
  /-- The address of the guest. -/
  address : String
  pinned : Bool
  peerPortPolicy : PeerPortPolicy
  /-- `wireless_interface`. -/
  wireless : String → Bool
  pinned_of_port : peerPortPolicy ≠ .absent → pinned = true

inductive Protocol
  | tcp | udp
  deriving DecidableEq

/-- The elements of the firewall sets and maps that a route owns. -/
inductive Element
  | pinned (link iface : String)
  | snatMap (link source : String)
  | incoming (link address : String) (protocol : Protocol) (port : ℕ)
  | peerSnat (link : String) (protocol : Protocol) (port : ℕ) (source : String)
  | forwards (source : String) (protocol : Protocol) (port : ℕ) (address : String)
  deriving DecidableEq

/-- What a set or map finds the element by: the value of a map is left out. -/
def Element.key : Element → Element
  | .snatMap link _ => .snatMap link ""
  | .peerSnat link protocol port _ => .peerSnat link protocol port ""
  | .forwards source protocol port _ => .forwards source protocol port ""
  | element => element

/-- An entry of the connection tracking for the guest, with the elements it was made under. -/
structure Flow where
  outbound : Bool
  mapping : List Element
  deriving DecidableEq

/-- A network, and what it has in the kernel and has told its supervisor. -/
structure Network where
  /-- The keys that `route_remove` deletes. -/
  routeRemove : List Element
  uplink : Option Route
  routeRetryAt : Option ℚ
  routeInitialized : Bool
  peerPort : Option ℕ
  channel : Bool
  up : Bool
  elements : List Element
  flows : List Flow
  told : Option ℕ
  deriving DecidableEq

/-- The steps of an update. -/
inductive Action
  | guestMtu
  | hostMtu
  | lower
  | classify
  | reserve (protocol : Protocol)
  | commit
  | flushOriginal
  | flushReply
  | notify
  | raise
  deriving DecidableEq

/-- How the steps of an update end: a step that raises has had its effect or not. -/
abbrev Answers := Action → Option Bool

/-- A step, and the network where it raised. -/
def perform (answers : Answers) (action : Action) (effect : Network → Network) (n : Network) :
    Except Network Network :=
  match answers action with
  | none => .ok (effect n)
  | some true => .error (effect n)
  | some false => .error n

/-- The first value of `peer_port`. -/
def Lease.initialPort (lease : Lease) : Option ℕ :=
  match lease.peerPortPolicy with
  | .absent => none
  | .fixed port => some port
  | .byLink ethernet _ => some ethernet

/-- The peer port of an update. -/
def Lease.portFor (lease : Lease) (recorded : Option ℕ) (current : Option Route) : Option ℕ :=
  match current, lease.peerPortPolicy with
  | some route, .byLink ethernet wifi =>
    some (if lease.wireless route.iface then wifi else ethernet)
  | _, _ => recorded

/-- The elements of one protocol. -/
def Lease.portElements (lease : Lease) (route : Route) (port : ℕ) (protocol : Protocol) :
    List Element :=
  [.incoming lease.name lease.address protocol port,
    .peerSnat lease.name protocol port route.source,
    .forwards route.source protocol port lease.address]

/-- The elements of a route. -/
def Lease.elementsFor (lease : Lease) (port : Option ℕ) : Option Route → List Element
  | none => []
  | some route =>
    if lease.pinned then
      [.pinned lease.name route.iface, .snatMap lease.name route.source] ++
        match port with
        | some port => lease.portElements route port .tcp ++ lease.portElements route port .udp
        | none => []
    else []

/-- Both routes are there, with one interface and source address. -/
def sameEgress (current uplink : Option Route) : Prop :=
  match current, uplink with
  | some a, some b => a.identity = b.identity
  | _, _ => False

instance : (current uplink : Option Route) → Decidable (sameEgress current uplink)
  | some a, some b => inferInstanceAs (Decidable (a.identity = b.identity))
  | some _, none => .isFalse id
  | none, _ => .isFalse id

/-- The kind of the uplink is read where the peer port depends on it. -/
def classify (lease : Lease) (answers : Answers) (current : Option Route) (n : Network) :
    Except Network Network :=
  match current, lease.peerPortPolicy with
  | some _, .byLink _ _ => perform answers .classify id n
  | _, _ => .ok n

/-- The sockets that keep the peer port of a route. -/
def reservePeerPort (lease : Lease) (answers : Answers) (current : Option Route) (n : Network) :
    Except Network Network :=
  if current ≠ none ∧ lease.pinned = true ∧ lease.portFor n.peerPort current ≠ none then do
    let n ← perform answers (.reserve .tcp) id n
    perform answers (.reserve .udp) id n
  else .ok n

/-- The elements that the deletions of a batch leave. -/
def Network.kept (n : Network) : List Element :=
  n.elements.filter fun e => e.key ∉ n.routeRemove

/-- The firewall rejects a batch that deletes what is not there, or gives a key another value. -/
def Network.accepts (n : Network) (elements : List Element) : Prop :=
  (∀ key ∈ n.routeRemove, key ∈ n.elements.map Element.key) ∧
    ∀ e ∈ elements, ∀ old ∈ n.kept, old.key = e.key → old = e

instance (n : Network) (elements : List Element) : Decidable (n.accepts elements) :=
  inferInstanceAs (Decidable (_ ∧ _))

/-- One batch deletes the old elements and adds the new ones; it is applied whole or not. -/
def commitElements (answers : Answers) (elements : List Element) (n : Network) :
    Except Network Network :=
  if n.routeRemove = [] ∧ elements = [] then .ok n
  else if n.accepts elements then
    perform answers .commit
      (fun n => { n with elements := n.kept.filter (fun e => e ∉ elements) ++ elements }) n
  else .error n

/-- `conntrack -D`, for the flows from the guest and to it. -/
def flushFlows (answers : Answers) (n : Network) : Except Network Network := do
  let n ← perform answers .flushOriginal
    (fun n => { n with flows := n.flows.filter fun flow => flow.outbound = false }) n
  perform answers .flushReply
    (fun n => { n with flows := n.flows.filter fun flow => flow.outbound = true }) n

/-- The supervisor is told of another port. -/
def notifyPort (answers : Answers) (port : Option ℕ) (n : Network) : Except Network Network :=
  if port ≠ n.peerPort ∧ n.channel = true then
    perform answers .notify (fun n => { n with told := port }) n
  else .ok n

/-- The host link is raised, unless a pinned lease has no route. -/
def raiseLink (lease : Lease) (answers : Answers) (current : Option Route) (n : Network) :
    Except Network Network :=
  if current ≠ none ∨ lease.pinned = false then
    perform answers .raise (fun n => { n with up := true }) n
  else .ok n

/-- The update with the host link down. -/
def replaceRoute (lease : Lease) (answers : Answers) (current : Option Route) (n : Network) :
    Except Network Network := do
  let n ← perform answers .lower (fun n => { n with up := false }) n
  let n ← classify lease answers current n
  let port := lease.portFor n.peerPort current
  let elements := lease.elementsFor port current
  let n ← reservePeerPort lease answers current n
  let n ← commitElements answers elements n
  let n ← flushFlows answers { n with routeRemove := elements.map Element.key }
  let n ← perform answers .guestMtu id n
  let n ← notifyPort answers port n
  let n ← raiseLink lease answers current n
  return { n with uplink := current, routeInitialized := true, routeRetryAt := none,
                  peerPort := port }

/-- There is nothing to update. -/
def Network.unchanged (n : Network) (current : Option Route) : Prop :=
  n.routeInitialized = true ∧ current = n.uplink ∧ n.routeRetryAt = none

/-- Nothing but the MTU is new. -/
def Network.mtuOnly (n : Network) (current : Option Route) : Prop :=
  n.routeInitialized = true ∧ n.routeRetryAt = none ∧ sameEgress current n.uplink

instance (n : Network) (current : Option Route) : Decidable (n.unchanged current) :=
  inferInstanceAs (Decidable (_ ∧ _ ∧ _))

instance (n : Network) (current : Option Route) : Decidable (n.mtuOnly current) :=
  inferInstanceAs (Decidable (_ ∧ _ ∧ _))

/-- `update_route`. -/
def updateRoute (lease : Lease) (answers : Answers) (current : Option Route) (n : Network) :
    Except Network Network :=
  if n.unchanged current then .ok n
  else if n.mtuOnly current then do
    let n ← perform answers .guestMtu id n
    let n ← perform answers .hostMtu id n
    return { n with uplink := current }
  else replaceRoute lease answers current n

/-- `ROUTE_RETRY_SECONDS`. -/
def routeRetrySeconds : ℚ := 5

/-- A failed update waits for its retry. -/
def Network.waits (n : Network) (current : Option Route) (now : ℚ) : Prop :=
  n.routeRetryAt.any (now < ·) = true ∧ current = n.uplink

instance (n : Network) (current : Option Route) (now : ℚ) : Decidable (n.waits current now) :=
  inferInstanceAs (Decidable (_ ∧ _))

/-- `refresh_route`; the clock is read again after a failure. -/
def refreshRoute (lease : Lease) (answers : Answers) (current : Option Route) (now failedAt : ℚ)
    (n : Network) : Network :=
  if n.waits current now then n
  else
    match updateRoute lease answers current n with
    | .ok n => n
    | .error n => { n with uplink := current, routeRetryAt := some (failedAt + routeRetrySeconds) }

/-! ## Runs -/

/-- A network before its first route. Entries of an earlier lease of its slot may be left. -/
def Lease.fresh (lease : Lease) (flows : List Flow) : Network where
  routeRemove := []
  uplink := none
  routeRetryAt := none
  routeInitialized := false
  peerPort := lease.initialPort
  channel := false
  up := false
  elements := []
  flows := flows
  told := none

/-- The response to the supervisor. -/
def Network.connect (n : Network) : Network := { n with channel := true, told := n.peerPort }

inductive Event
  /-- A notification, or the retry of an update. -/
  | notification (current : Option Route) (answers : Answers) (now failedAt : ℚ)
  /-- A new entry of the connection tracking. -/
  | traffic (outbound : Bool)

def Network.after (lease : Lease) (n : Network) : Event → Network
  | .notification current answers now failedAt => refreshRoute lease answers current now failedAt n
  | .traffic outbound => { n with flows := ⟨outbound, n.elements⟩ :: n.flows }

/-- The networks of a lease that is open, where its first route and every event meet a
condition. -/
inductive Reached (lease : Lease) (opens : Option Route → Answers → Prop)
    (meets : Network → Event → Prop) : Network → Prop
  | opened (flows : List Flow) (current : Option Route) (answers : Answers) (now failedAt : ℚ)
      (hopens : opens current answers) : Reached lease opens meets
        (refreshRoute lease answers current now failedAt (lease.fresh flows)).connect
  | step {n : Network} (h : Reached lease opens meets n) (event : Event)
      (hmeets : meets n event) : Reached lease opens meets (n.after lease event)

end Preseed.AppVeth
