import Preseed.Effects.Raising
import Preseed.Ipaddress.Addresses

/-!
# Mirroring tailnet routes

`mirror` of tailscale-netkit: the addresses of the daemon are put on the host interface,
and the private routing table 52 is repeated in the host table 52. Routes are records of
`ip -j`; of the host and of the private namespace the model has what `mirror` reads and
what its commands change.
-/

namespace Preseed.TailnetRoutes

open Preseed.Ipaddress

/-- A string. -/
abbrev Text := Ipaddress.Text

/-- `-4` and `-6`. -/
inductive Family
  | inet
  | inet6
  deriving DecidableEq

/-- `PEER4` and `PEER6`. -/
def Family.peer : Family → Text
  | inet => "10.255.253.2".toList
  | inet6 => "fd6b:bbad:cd4e:104::2".toList

/-- `TAIL4` and `TAIL6`. -/
def Family.tailnet : Family → Network
  | inet => ⟨.v4 0x64400000, 10⟩
  | inet6 => ⟨.v6 0xfd7a115ca1e000000000000000000000 none, 48⟩

/-- `ROUTE_PROTOCOL`. -/
def routeProtocol : Text := "242".toList

/-- The family of an address. -/
def family : Address → Family
  | .v4 _ => .inet
  | .v6 _ _ => .inet6

/-- `address in network`. -/
def contains (network : Network) (address : Address) : Bool :=
  match network.networkAddress, address with
  | .v4 base, .v4 ip => ip &&& netmask 32 network.prefixlen = base
  | .v6 base _, .v6 ip _ => ip &&& netmask 128 network.prefixlen = base
  | _, _ => false

/-! ### Routes -/

/-- The type of a route. -/
inductive Kind
  | unicast
  | throw
  | unreachable
  | blackhole
  | prohibit
  | other (name : Text)
  deriving DecidableEq

/-- The name of a type. -/
def Kind.text : Kind → Text
  | unicast => "unicast".toList
  | throw => "throw".toList
  | unreachable => "unreachable".toList
  | blackhole => "blackhole".toList
  | prohibit => "prohibit".toList
  | other name => name

/-- The destination of a route; `str(ip_network(destination, strict=False))` tells networks
apart. -/
inductive Destination
  | default
  | network (network : Network)
  deriving DecidableEq

/-- The text of a destination. -/
def Destination.text : Destination → Text
  | default => "default".toList
  | network n => n.text

/-- A route. -/
structure Route where
  kind : Kind
  destination : Destination
  dev : Option Text
  gateway : Option Text
  prefsrc : Option Text
  protocol : Text
  deriving DecidableEq

/-- What `route_key` returns. -/
abbrev Key := Kind × Destination

/-- The configured host interface. -/
structure Config where
  interface : Text

/-- A field is there and not empty. -/
def truthy (field : Option Text) : Bool := field.any (· ≠ [])

/-! ### Commands -/

/-- The part of both namespaces that `mirror` reads or changes. -/
structure World where
  /-- The addresses of the host interface. -/
  addresses : Family → List Text
  /-- Host table 52. -/
  routes : Family → List Route
  /-- Private table 52. -/
  privateRoutes : Family → List Route
  /-- The addresses that private table 53 sends to the host. -/
  delivered : Family → List Text

/-- The commands of `mirror`. -/
inductive Command
  /-- `route replace table 53 address via host`, in the private namespace. -/
  | deliver (f : Family) (address : Text)
  | addAddress (f : Family) (address : Text)
  | deleteAddress (f : Family) (address : Text)
  /-- `route delete table 53 address via host`, in the private namespace. -/
  | undeliver (f : Family) (address : Text)
  /-- `route_arguments(config, family, 'replace', key, source)`. -/
  | replaceRoute (f : Family) (key : Key) (source : Option Text)
  /-- `route_arguments(config, family, 'delete', key)`. -/
  | deleteRoute (f : Family) (key : Key)
  deriving DecidableEq

/-- The route that `route_arguments` describes. -/
def routeArguments (config : Config) (f : Family) (key : Key) (source : Option Text) : Route :=
  if key.1 ≠ .unicast then ⟨key.1, key.2, none, none, none, routeProtocol⟩
  else ⟨.unicast, key.2, some config.interface, some f.peer, source, routeProtocol⟩

/-- What a command does. Deleting an address deletes the routes whose preferred source it was. -/
def World.apply (config : Config) (w : World) : Command → World
  | .deliver f address =>
    let rest := (w.delivered f).filter (· ≠ address)
    { w with delivered := Function.update w.delivered f (rest ++ [address]) }
  | .addAddress f address =>
    { w with addresses := Function.update w.addresses f (w.addresses f ++ [address]) }
  | .deleteAddress f address =>
    let rest := (w.addresses f).filter (· ≠ address)
    let routes := (w.routes f).filter fun r => r.prefsrc ≠ some address
    { w with
      addresses := Function.update w.addresses f rest
      routes := Function.update w.routes f routes }
  | .undeliver f address =>
    let rest := (w.delivered f).filter (· ≠ address)
    { w with delivered := Function.update w.delivered f rest }
  | .replaceRoute f key source =>
    let rest := (w.routes f).filter fun r => r.destination ≠ key.2
    { w with
      routes := Function.update w.routes f (rest ++ [routeArguments config f key source]) }
  | .deleteRoute f key =>
    let rest := (w.routes f).filter fun r => (r.kind, r.destination) ≠ key
    { w with routes := Function.update w.routes f rest }

/-- What `mirror` asks for. -/
inductive Query
  | addresses (f : Family)
  | routes (f : Family)
  | privateRoutes (f : Family)

/-- When iproute2 fails, or its response is refused. -/
structure Kernel where
  refuses : World → Command → Bool
  unreadable : World → Query → Bool

/-- A world, and the commands that have been run in it. -/
structure Netkit where
  world : World
  issued : List Command

/-- A program that runs commands, and may raise. -/
abbrev Program := EStateM String Netkit

/-- `ip`, for a command that changes something. -/
def ip (kernel : Kernel) (config : Config) (c : Command) : Program Unit := do
  let s ← get
  if kernel.refuses s.world c then throw "command failed"
  set (⟨s.world.apply config c, s.issued ++ [c]⟩ : Netkit)

/-- `objects`, for the part of the world that is asked for. -/
def objects {α : Type} (kernel : Kernel) (query : Query) (answer : World → α) : Program α := do
  let s ← get
  if kernel.unreadable s.world query then throw "invalid or excessive iproute2 response"
  pure (answer s.world)

/-! ### Reading -/

/-- A type that `route_key` accepts. -/
def Kind.supported : Kind → Bool
  | other _ => false
  | _ => true

/-- `route_key`. -/
def routeKey (r : Route) : Except String Key :=
  if r.kind.supported then .ok (r.kind, r.destination)
  else .error "unsupported private tailnet route type"

/-- The check of `owned_routes` for one record, with the routes before it. -/
def owned (config : Config) (f : Family) (before : List (Key × Route)) (r : Route) :
    Except String (List (Key × Route)) := do
  let key ← routeKey r
  if r.protocol ≠ routeProtocol ∨ (before.any fun old => old.1.2 = key.2) ∨
      (key.1 = .unicast ∧ (r.dev ≠ some config.interface ∨ r.gateway ≠ some f.peer)) ∨
      (key.1 ≠ .unicast ∧ (truthy r.dev ∨ truthy r.gateway)) then
    .error "host tailnet route ownership changed"
  else .ok (before ++ [(key, r)])

/-- What is raised outside of commands. -/
def lift {α : Type} (x : Except String α) : Program α :=
  match x with
  | .ok a => pure a
  | .error e => throw e

/-- `owned_routes`. -/
def ownedRoutes (kernel : Kernel) (config : Config) (f : Family) :
    Program (List (Key × Route)) := do
  let records ← objects kernel (.routes f) fun w => w.routes f
  lift (records.foldlM (owned config f) [])

/-- `current`: the listed addresses that are in the tailnet. -/
def tailnetAddresses (f : Family) (listed : List Text) : Except String (List Text) :=
  if listed.all fun text => (ipAddress text).isSome then
    .ok (listed.filter fun text => (ipAddress text).any (contains f.tailnet)).dedup
  else .error "does not appear to be an IPv4 or IPv6 address"

/-- `sorted`, of strings. -/
def sortTexts (texts : List Text) : List Text := texts.mergeSort fun a b => decide ¬b < a

/-- `sorted`, of route keys. -/
def sortKeys (keys : List Key) : List Key :=
  keys.mergeSort fun a b =>
    decide (a.1.text < b.1.text) || decide (a.1.text = b.1.text ∧ ¬b.2.text < a.2.text)

/-! ### Mirroring -/

/-- The parts of the daemon status that `mirror` reads. -/
structure Status where
  backendState : Option Text
  /-- `Self.TailscaleIPs`. -/
  tailscaleIPs : Option (List Text)

/-- The daemon is running. -/
def Status.active (status : Status) : Bool := status.backendState = some "Running".toList

/-- The check of one address of the daemon. -/
def desiredAddress (raw : Text) : Except String Text :=
  match ipAddress raw with
  | none => .error "does not appear to be an IPv4 or IPv6 address"
  | some address =>
    if contains (family address).tailnet address then .ok address.text
    else .error "daemon returned a non-tailnet host address"

/-- `desired`. -/
def Status.desired (status : Status) : Except String (List Text) := do
  let addresses := if status.active then status.tailscaleIPs.getD [] else []
  if 2 < addresses.length then .error "invalid daemon address response"
  let texts ← addresses.mapM desiredAddress
  pure texts.dedup

/-- A private route is repeated on the host, when the daemon is running. -/
def wantedRoute (config : Config) (wanted : List Text) (r : Route) : Bool :=
  r.kind ≠ .unicast ∨ r.dev = some config.interface ∧ wanted ≠ []

/-- `wanted_routes`. -/
def wantedRoutes (config : Config) (wanted : List Text) (records : List Route) :
    Except String (List Key) := do
  let keys ← records.mapM routeKey
  pure (((records.zip keys).filter fun (r, _) => wantedRoute config wanted r).map Prod.snd).dedup

/-- The family of an address text, which `ip_address` has returned before. -/
def versionIs (f : Family) (text : Text) : Bool := (ipAddress text).map family = some f

/-- The addresses of one family in `mirror`; returns `wanted`. -/
def mirrorAddresses (kernel : Kernel) (config : Config) (desired : List Text) (f : Family) :
    Program (List Text) := do
  let listed ← objects kernel (.addresses f) fun w => w.addresses f
  let current ← lift (tailnetAddresses f listed)
  let wanted := desired.filter (versionIs f)
  if 1 < wanted.length then throw "ambiguous daemon source address"
  ((sortTexts (wanted.filter (· ∉ current))).flatMap fun address =>
    [.deliver f address, .addAddress f address]).forM (ip kernel config)
  ((sortTexts (current.filter (· ∉ wanted))).flatMap fun address =>
    [.deleteAddress f address, .undeliver f address]).forM (ip kernel config)
  pure wanted

/-- `wanted_routes` of one family in `mirror`. -/
def privateKeys (kernel : Kernel) (config : Config) (active : Bool) (wanted : List Text)
    (f : Family) : Program (List Key) :=
  if active then do
    let records ← objects kernel (.privateRoutes f) fun w => w.privateRoutes f
    lift (wantedRoutes config wanted records)
  else pure []

/-- The routes of one family in `mirror`. -/
def mirrorRoutes (kernel : Kernel) (config : Config) (keys : List Key) (source : Option Text)
    (f : Family) : Program Unit := do
  let existing ← ownedRoutes kernel config f
  let wrongSource := (existing.filter fun (key, record) =>
    key.1 = .unicast ∧ record.prefsrc ≠ source).map Prod.fst
  let destinations := keys.map Prod.snd
  if destinations.dedup.length ≠ keys.length then
    throw "ambiguous private tailnet route destinations"
  ((sortKeys (keys.filter fun key => key ∉ existing.map Prod.fst ∨ key ∈ wrongSource)).map
    fun key => .replaceRoute f key source).forM (ip kernel config)
  ((sortKeys ((existing.map Prod.fst).filter fun key => key.2 ∉ destinations)).map
    (.deleteRoute f)).forM (ip kernel config)

/-- The body of `mirror` for one family. -/
def mirrorFamily (kernel : Kernel) (config : Config) (active : Bool) (desired : List Text)
    (f : Family) : Program (List Key) := do
  let wanted ← mirrorAddresses kernel config desired f
  let keys ← privateKeys kernel config active wanted f
  mirrorRoutes kernel config keys wanted.head? f
  pure keys

/-- `mirror`: what it returns are the addresses and the routes it has mirrored. -/
def mirror (kernel : Kernel) (config : Config) (status : Status) :
    Program (List Text × List (Family × Key)) := do
  let desired ← lift status.desired
  let keys4 ← mirrorFamily kernel config status.active desired .inet
  let keys6 ← mirrorFamily kernel config status.active desired .inet6
  pure (sortTexts desired,
    (sortKeys keys4).map (fun key => (.inet, key)) ++ (sortKeys keys6).map fun key => (.inet6, key))

end Preseed.TailnetRoutes
