import Preseed.Networks.Prefix

/-!
# Firewall policies

The parts of a merged policy that `nft-policy-generate.py` reads for its rules, and
the groups that rules refer to. Addresses, interfaces and ports are the values
that their texts denote, with `none` for a blank text in a list of addresses; a
policy error is `none`.
-/

namespace Preseed.Nftables

open Preseed.Networks

/-- A name, or a prefix before a trailing `*`. -/
inductive Pattern
  | exact (name : String)
  | wildcard (stem : String)
  deriving DecidableEq

def Pattern.name? : Pattern → Option String
  | exact name => some name
  | wildcard _ => none

def Pattern.stem? : Pattern → Option String
  | exact _ => none
  | wildcard stem => some stem

/-- `PROTO_SET`. -/
inductive Proto
  | tcp | udp
  deriving DecidableEq

/-- A port or a range of ports. -/
structure Ports where
  first : ℕ
  last : ℕ
  deriving DecidableEq

/-- `DIRECTION_SET`. -/
inductive Direction
  | inbound | outbound | bidirectional
  deriving DecidableEq

/-- The peers and interfaces of an `allow` mapping. -/
structure Allow where
  ipv4 : List (Option Network)
  ipv6 : List (Option Network)
  ipv4Groups : List String
  ipv6Groups : List String
  interfaces : List Pattern
  interfaceGroups : List String

def Allow.empty : Allow := ⟨[], [], [], [], [], []⟩

structure Service where
  name : String
  enabled : Bool
  enforceAllowlist : Bool
  sensitive : Bool
  direction : Direction
  protocols : List Proto
  ports : List Ports
  sourcePorts : List Ports
  allow : Allow
  /-- Absent for a service without the key. -/
  allowTo : Option Allow
  rateLimit : Option String
  log : Bool

/-- The groups of a policy: `interface_groups` with `interfaces`, `cidr_groups` with
`cidrs`, and `port_groups` with `ports`. -/
structure Groups where
  interfaces : List (String × List Pattern)
  cidrs : List (String × List (Option Network))
  ports : List (String × List Ports)
  interfaces_nodup : (interfaces.map Prod.fst).Nodup
  cidrs_nodup : (cidrs.map Prod.fst).Nodup
  ports_nodup : (ports.map Prod.fst).Nodup

/-! ## Policies -/

/-- `source_filtering`, `anti_spoofing`: groups and direct networks to drop, by family. -/
structure DropSources where
  version : Version
  sourceGroups : List String
  sources : List (Option Network)

structure SourceFilter where
  interfaces : List Pattern
  interfaceGroups : List String
  categories : List DropSources

/-- `tailscale_netkit`. -/
structure Netkit where
  interface : String
  physicalInterfaces : List String
  dnsHostPort : ℕ
  udpPort : ℕ

/-- `nftables.chain_names`. -/
structure ChainNames where
  input : String
  forward : String
  output : String
  localInput : String
  localForward : String
  localOutput : String

def ChainNames.all (names : ChainNames) : List String :=
  [names.input, names.forward, names.output, names.localInput, names.localForward,
    names.localOutput]

/-- `desktop_ipv6`, when it is enabled. -/
structure DesktopIpv6 where
  hostCidrGroup : String
  accountInput : Bool
  accountOutput : Bool

/-- `DROP_LOG_CHAINS`. -/
inductive LogChain
  | input | forward | output
  deriving DecidableEq

/-- `logging.drop`, when it is enabled, with the rate of its messages. -/
structure DropLog where
  chains : List LogChain
  limit : Option String

/-- An egress rule, and what an outbound service has in common with it. -/
structure OutboundSpec where
  name : String
  enabled : Bool
  protocols : List Proto
  ports : List Ports
  sourcePorts : List Ports
  allowTo : Allow

/-- `egress`, with the rules sorted by name. -/
structure Egress where
  /-- `egress_enforced`. -/
  enforced : Bool
  /-- The rate of audited packets, if unknown egress is audited. -/
  audit : Option (Option String)
  rules : List OutboundSpec
  allowDns : Bool
  allowNtp : Bool
  allowHttpHttps : Bool

structure ForwardRule where
  enabled : Bool
  fromInterfaces : List Pattern
  fromInterfaceGroups : List String
  toInterfaces : List Pattern
  toInterfaceGroups : List String
  sourceIpv4Groups : List String
  sourceIpv4 : List (Option Network)
  destinationIpv4Groups : List String
  destinationIpv4 : List (Option Network)

/-- `forwarding`. -/
structure Forwarding where
  enabled : Bool
  routerMode : Bool
  allowEstablishedRelated : Bool
  rules : List ForwardRule

structure Container where
  enabled : Bool
  allowContainerOutbound : Bool
  interfaces : List Pattern
  interfaceGroups : List String

/-- `nat.masquerade`; the group of output interfaces may be blank. -/
structure Masquerade where
  enabled : Bool
  outInterfaces : List Pattern
  outInterfaceGroup : String
  sourceIpv4Groups : List String
  sourceIpv4 : List (Option Network)

structure DnatRule where
  enabled : Bool
  proto : Proto
  publicPort : Ports
  targetVersion : Version
  targetIp : ℕ
  targetPort : Ports

/-- `nat`. -/
structure NatSettings where
  enabled : Bool
  masquerade : Masquerade
  dnatRules : List DnatRule

/-- What a policy says about its rules, with the services sorted by name. -/
structure Policy where
  groups : Groups
  chainNames : ChainNames
  services : List Service
  dropInvalid : Bool
  appInterfaces : List String
  /-- A single loopback address. -/
  appDnsHostAddress : Network
  appDnsHostPort : ℕ
  webTlsPorts : List ℕ
  tailscaleNetkit : Option Netkit
  allowEstablishedRelated : Bool
  allowLoopback : Bool
  dropLoopbackOnNonLoopback : Bool
  allowDhcpClient : Bool
  sourceFiltering : Option SourceFilter
  unsafeSourceFiltering : Bool
  allowIpv6NeighborDiscovery : Bool
  antiSpoofing : Option SourceFilter
  /-- The rate of allowed messages, if they are allowed. -/
  icmpv4 : Option (Option String)
  icmpv6 : Option (Option String)
  desktopIpv6 : Option DesktopIpv6
  dropLog : Option DropLog
  egress : Egress
  forwarding : Forwarding
  /-- `interfaces.wan`. -/
  wanInterfaces : List Pattern
  containers : List Container
  nat : NatSettings
  /-- The policy of the input chain is to accept. -/
  inputAccepts : Bool
  /-- Services are the values of a mapping. -/
  distinct : (services.map Service.name).Nodup

/-! ## Values -/

/-- `unique_preserve`. -/
def uniquePreserve {α : Type} [DecidableEq α] (items : List α) : List α := items.eraseDups

/-- `parse_networks`, for one family. -/
def parseNetworks (version : Version) (values : List (Option Network)) : List Network :=
  uniquePreserve ((values.filterMap id).filter (·.version = version))

/-- `direct_cidrs_for_version`: the other family is an error. -/
def directCidrsForVersion (version : Version) (values : List (Option Network)) :
    Option (List Network) :=
  if (values.filterMap id).all (·.version = version) then some (parseNetworks version values)
  else none

def exactNames (patterns : List Pattern) : List String :=
  uniquePreserve (patterns.filterMap Pattern.name?)

def wildcardStems (patterns : List Pattern) : List String :=
  uniquePreserve (patterns.filterMap Pattern.stem?)

/-! ## Groups -/

/-- The values of an interface group that is in the define maps. -/
def interfaceGroup (groups : Groups) (name : String) : Option (List Pattern) :=
  match groups.interfaces.lookup name with
  | none | some [] => none
  | some patterns => some patterns

/-- The values of an address group that is in the define map of a family. -/
def cidrGroup (groups : Groups) (version : Version) (name : String) : Option (List Network) :=
  match groups.cidrs.lookup name with
  | none => none
  | some values =>
      if parseNetworks version values = [] then none else some (parseNetworks version values)

/-! ## Rules -/

/-- The right side of an interface match. -/
inductive InterfaceSet
  /-- The constant of a group. -/
  | group (name : String) (exact : List String)
  | direct (exact : List String)
  | wildcard (stem : String)
  deriving DecidableEq

/-- The right side of an address match. -/
inductive AddressSet
  /-- The constant of a group. -/
  | group (name : String) (values : List Network)
  | direct (values : List Network)
  deriving DecidableEq

def InterfaceSet.has : InterfaceSet → String → Bool
  | group _ exact, iface => exact.contains iface
  | direct exact, iface => exact.contains iface
  | wildcard stem, iface => stem.toList.isPrefixOf iface.toList

def AddressSet.values : AddressSet → List Network
  | group _ values => values
  | direct values => values

def AddressSet.has (set : AddressSet) (address : ℕ) : Bool :=
  set.values.any fun net => decide (net.contains address)

/-- `saddr` or `daddr`. -/
inductive Role
  | source | destination
  deriving DecidableEq

/-- `ip saddr SET` and its variants. -/
structure AddressMatch where
  version : Version
  role : Role
  set : AddressSet
  deriving DecidableEq

/-- The transport of a packet. -/
inductive Transport
  | tcp | udp | icmp | icmpv6 | other
  deriving DecidableEq

def Proto.transport : Proto → Transport
  | tcp => .tcp
  | udp => .udp

/-- The states of connection tracking. -/
inductive Tracked
  | new | established | related | invalid | untracked
  deriving DecidableEq

inductive PacketType
  | unicast | broadcast | multicast
  deriving DecidableEq

/-- A packet at the hook of a chain; there is no output interface at the input hook. -/
structure Packet where
  iifname : String
  oifname : Option String
  version : Version
  saddr : ℕ
  daddr : ℕ
  transport : Transport
  sport : ℕ
  dport : ℕ
  icmpType : String
  state : Tracked
  dnat : Bool
  packetType : PacketType
  /-- A rate is not exceeded. -/
  withinRate : String → Bool

inductive Match
  | iifname (set : InterfaceSet)
  | oifname (set : InterfaceSet)
  | iifnameNot (name : String)
  | address (addresses : AddressMatch)
  | dport (protos : List Proto) (ports : List Ports)
  | sport (proto : Proto) (ports : List Ports)
  | state (states : List Tracked)
  | dnat
  | protocol (transport : Transport)
  | icmp (transport : Transport) (types : List String)
  | packetType (types : List PacketType)
  | rate (limit : String)

def Ports.has (ports : Ports) (port : ℕ) : Bool :=
  decide (ports.first ≤ port) && decide (port ≤ ports.last)

/-- The address that a match reads. -/
def Packet.address (packet : Packet) : Role → ℕ
  | .source => packet.saddr
  | .destination => packet.daddr

def AddressMatch.holds (addresses : AddressMatch) (packet : Packet) : Bool :=
  decide (packet.version = addresses.version) &&
    addresses.set.has (packet.address addresses.role)

def Match.holds (packet : Packet) : Match → Bool
  | iifname set => set.has packet.iifname
  | oifname set => packet.oifname.any set.has
  | iifnameNot name => packet.iifname != name
  | address addresses => addresses.holds packet
  | dport protos ports =>
      protos.any (fun proto => packet.transport = proto.transport) &&
        ports.any (·.has packet.dport)
  | sport proto ports =>
      decide (packet.transport = proto.transport) && ports.any (·.has packet.sport)
  | state states => states.contains packet.state
  | dnat => packet.dnat
  | protocol transport => decide (packet.transport = transport)
  | icmp transport types => decide (packet.transport = transport) && types.contains packet.icmpType
  | packetType types => types.contains packet.packetType
  | rate limit => packet.withinRate limit

/-- What a rule does with a packet that it matches; logs and counters only pass on. -/
inductive Statement
  | accept | drop | pass | return
  | jump (chain : String)
  deriving DecidableEq

structure Rule where
  conditions : List Match
  statement : Statement

def Rule.holds (rule : Rule) (packet : Packet) : Bool := rule.conditions.all (·.holds packet)

end Preseed.Nftables
