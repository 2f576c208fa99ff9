import Preseed.Ipaddress.Addresses

/-!
# The application network policy

`parse_configuration` of `app_veth_policy`: the checks on a decoded configuration, and the
record of settings and applications that it returns.
-/

namespace Preseed.AppPolicy

open Preseed.Ipaddress

/-- A string. -/
abbrev Text := Ipaddress.Text

/-- A JSON value. -/
inductive Json
  | null
  | bool (b : Bool)
  | int (n : Int)
  | float (text : Text)
  | str (text : Text)
  | list (items : List Json)
  | object (items : List (Text × Json))

/-- The members of an object. -/
abbrev Object := List (Text × Json)

mutual

/-- `_unique_object` accepts every object of the value. -/
def Json.unique : Json → Bool
  | .list items => uniqueItems items
  | .object items => decide (items.map Prod.fst).Nodup && uniqueMembers items
  | _ => true

def uniqueItems : List Json → Bool
  | [] => true
  | item :: items => item.unique && uniqueItems items

def uniqueMembers : List (Text × Json) → Bool
  | [] => true
  | member :: members => member.2.unique && uniqueMembers members

end

/-- `set(value) == keys`. -/
def hasKeys (value : Object) (keys : List String) : Bool :=
  (keys.all fun key => key.toList ∈ value.map Prod.fst) &&
    value.all fun member => member.1 ∈ keys.map String.toList

/-- `set(value) <= keys`. -/
def onlyKeys (value : Object) (keys : List String) : Bool :=
  value.all fun member => member.1 ∈ keys.map String.toList

/-- `value.get(key)`. -/
def field (value : Object) (key : String) : Option Json := value.lookup key.toList

/-! ### Texts -/

/-- `[a-z]`. -/
def isLower (c : Char) : Bool := 'a' ≤ c ∧ c ≤ 'z'

/-- `[a-z0-9]`. -/
def isLowerDigit (c : Char) : Bool := isLower c ∨ '0' ≤ c ∧ c ≤ '9'

/-- The text fully matches a first byte and at most `n` others. -/
def matchesName (first rest : Char → Bool) (n : ℕ) : Text → Bool
  | [] => false
  | c :: cs => first c && cs.all rest && decide (cs.length ≤ n)

/-- `[a-z][a-z0-9]{0,14}`. -/
def isInterface : Text → Bool := matchesName isLower isLowerDigit 14

/-- `-[a-z][a-z0-9]{0,8}`. -/
def isSuffix : Text → Bool
  | '-' :: rest => matchesName isLower isLowerDigit 8 rest
  | _ => false

/-- `[a-z_][a-z0-9_-]{0,31}`. -/
def isUser : Text → Bool :=
  matchesName (fun c => isLower c || c = '_') (fun c => isLowerDigit c || c = '_' || c = '-') 31

/-- `APP_NAME`. -/
def isAppName : Text → Bool :=
  matchesName isLower (fun c => isLowerDigit c || c = '_' || c = '-') 63

/-! ### Addresses -/

/-- `IPv4Network(text)`: a network address without host bits. -/
def strictIpv4Network (text : Text) : Option Network :=
  match ipv4Network text, text.splitOn '/' with
  | some network, address :: _ =>
    if ipv4Address address = some network.networkAddress then some network else none
  | _, _ => none

/-- The integer of an IPv4 address. -/
def ipv4 : Address → ℕ
  | .v4 ip => ip
  | .v6 ip _ => ip

/-- `int(network.network_address)`. -/
def first (network : Network) : ℕ := ipv4 network.networkAddress

/-- `int(network.broadcast_address)`: the host mask is added. -/
def last (network : Network) : ℕ :=
  first network ||| (netmask 32 network.prefixlen ^^^ (2 ^ 32 - 1))

/-- `network.num_addresses`. -/
def numAddresses (network : Network) : ℕ := last network - first network + 1

/-- `network.subnet_of(other)`. -/
def subnetOf (network other : Network) : Bool :=
  first other ≤ first network ∧ last network ≤ last other

/-- `address in network`. -/
def contains (network : Network) (ip : ℕ) : Bool :=
  ip &&& netmask 32 network.prefixlen = first network

/-- `PRIVATE_IPV4_NETWORKS`. -/
def privateIpv4Networks : List Network :=
  [⟨.v4 0x0A000000, 8⟩, ⟨.v4 0xAC100000, 12⟩, ⟨.v4 0xC0A80000, 16⟩]

/-- `address.is_loopback`. -/
def isLoopback (ip : ℕ) : Bool := contains ⟨.v4 0x7F000000, 8⟩ ip

/-! ### The network -/

/-- What `parse_network` returns. -/
structure Settings where
  ipv4Cidr : Text
  maxLeases : ℕ
  hostInterfacePrefix : Text
  hostInterfaceSuffix : Text
  peerInterfaceSuffix : Text
  namespaceInterface : Text
  dnsAddress : Text
  dnsHostAddress : Text
  dnsHostPort : ℕ

/-- `NETWORK_FIELDS`. -/
def networkFields : List String :=
  ["ipv4_cidr", "max_leases", "host_interface_prefix", "host_interface_suffix",
    "peer_interface_suffix", "namespace_interface", "dns_address", "dns_host_address",
    "dns_host_port"]

/-- The value is a string. -/
def Json.text? : Json → Option Text
  | str text => some text
  | _ => none

/-- `type(value) is int`, and it is not negative. -/
def Json.natural? : Json → Option ℕ
  | int (.ofNat n) => some n
  | _ => none

/-- The host interface of a slot, or the peer interface: `interface_name` of app-veth. -/
def Settings.interfaceName (s : Settings) (slot : ℕ) (peer : Bool) : Text :=
  s.hostInterfacePrefix ++ decimal slot ++
    if peer then s.peerInterfaceSuffix else s.hostInterfaceSuffix

/-- `IPv4Address(value)`; a number is an address, too. -/
def Json.address? : Json → Option Address
  | str text => ipv4Address text
  | int (.ofNat n) => if n < 2 ^ 32 then some (.v4 n) else none
  | bool b => some (.v4 b.toNat)
  | _ => none

/-- `IPv4Network(value)`. -/
def Json.network? : Json → Option Network
  | str text => strictIpv4Network text
  | value => value.address?.map fun address => ⟨address, 32⟩

/-- The addresses of `parse_network`: the pool, the name server and the listener. -/
def networkAddresses (value : Object) : Except String (Network × ℕ × ℕ) :=
  match (field value "ipv4_cidr").bind Json.network?,
      (field value "dns_address").bind Json.address?,
      (field value "dns_host_address").bind Json.address? with
  | some pool, some dns, some listener => .ok (pool, ipv4 dns, ipv4 listener)
  | _, _, _ => .error "invalid managed network addresses"

/-- `parse_network`. -/
def parseNetwork (value : Json) : Except String Settings := do
  let .object value := value | .error "invalid managed network identity fields"
  if !hasKeys value networkFields then .error "invalid managed network identity fields"
  let (pool, dns, listener) ← networkAddresses value
  let range := "invalid managed network address range or capacity"
  let some cidr := (field value "ipv4_cidr").bind Json.text? | .error range
  let some count := (field value "max_leases").bind Json.natural? | .error range
  let some dnsText := (field value "dns_address").bind Json.text? | .error range
  let some listenerText := (field value "dns_host_address").bind Json.text? | .error range
  let some port := (field value "dns_host_port").bind Json.natural? | .error range
  if pool.text ≠ cidr ∨ ¬(16 ≤ pool.prefixlen ∧ pool.prefixlen ≤ 30) ∨
      ¬(privateIpv4Networks.any (subnetOf pool)) ∨ ¬(1 ≤ count ∧ count ≤ 128) ∨
      numAddresses pool < count * 4 ∨ ¬(privateIpv4Networks.any (contains · dns)) ∨
      contains pool dns ∨ ipv4Text dns ≠ dnsText ∨ ¬isLoopback listener ∨
      ipv4Text listener ≠ listenerText ∨ ¬(1024 ≤ port ∧ port ≤ 65535) then
    .error range
  let name := "invalid managed network interface name"
  let some namePrefix := (field value "host_interface_prefix").bind Json.text? | .error name
  if !isInterface namePrefix then .error name
  let some namespaceInterface := (field value "namespace_interface").bind Json.text? | .error name
  if !isInterface namespaceInterface then .error name
  let suffix := "invalid managed network interface suffix"
  let some hostSuffix := (field value "host_interface_suffix").bind Json.text? | .error suffix
  if !isSuffix hostSuffix then .error suffix
  let some peerSuffix := (field value "peer_interface_suffix").bind Json.text? | .error suffix
  if !isSuffix peerSuffix then .error suffix
  let longest := namePrefix ++ decimal (count - 1)
  if namespaceInterface = "lo".toList ∨ hostSuffix = peerSuffix ∨
      15 < (longest ++ hostSuffix).length ∨ 15 < (longest ++ peerSuffix).length then
    .error "managed network interface names collide or exceed IFNAMSIZ"
  pure ⟨cidr, count, namePrefix, hostSuffix, peerSuffix, namespaceInterface, dnsText,
    listenerText, port⟩

/-! ### Applications -/

/-- `peer_port`: one port, or one for Ethernet and one for Wi-Fi. -/
inductive PeerPort
  | single (port : ℕ)
  | links (ethernet wifi : ℕ)

/-- A record of the returned `apps`. -/
structure App where
  network : Bool
  blockLan : Bool
  peerPort : Option PeerPort
  pinRoute : Bool
  executables : List Text
  slots : List ℕ
  addresses : List Text

/-- `1024 <= port <= 65535`. -/
def isPort (port : ℕ) : Bool := 1024 ≤ port ∧ port ≤ 65535

/-- `PurePosixPath(value).parts` of an absolute path, without its root. -/
def pathParts (value : Text) : List Text :=
  (value.splitOn '/').filter fun component => component ≠ [] ∧ component ≠ ['.']

/-- `str(PurePosixPath(value))` of an absolute path with one leading slash. -/
def pathText (value : Text) : Text := '/' :: ['/'].intercalate (pathParts value)

/-- The allowed directories of executables. -/
def executablePrefixes : List Text :=
  ["/usr/bin/".toList, "/usr/local/bin/".toList, "/usr/lib/".toList, "/opt/".toList]

/-- The checks of one executable. -/
def isExecutable (value : Text) : Bool :=
  value.length ≤ 4096 ∧ (executablePrefixes.any fun start => start.isPrefixOf value) ∧
    ¬(value.any fun c => c.toNat < 32 || c.toNat = 127) ∧ pathText value = value ∧
    ['.', '.'] ∉ pathParts value

/-- The executables of one application are added to `paths`. -/
def parseExecutables (paths : List Text) : List Json → Except String (List Text)
  | [] => .ok []
  | item :: items => do
    let some path := item.text? | .error "invalid or duplicate application executable"
    if !isExecutable path || path ∈ paths then
      .error "invalid or duplicate application executable"
    let rest ← parseExecutables (paths ++ [path]) items
    pure (path :: rest)

/-- The fields of a policy. -/
def policyFields : List String :=
  ["network", "block_lan", "peer_port", "pin_route", "executables", "slots", "addresses"]

/-- The check of `peer_port` where it is an object; the port, then. -/
def parseLinks (name : Text) : Json → Except String (Option PeerPort)
  | .object port =>
    match (field port "ethernet").bind Json.natural?, (field port "wifi").bind Json.natural? with
    | some ethernet, some wifi =>
      if name ≠ "qbittorrent".toList ∨ !hasKeys port ["ethernet", "wifi"] ∨ !isPort ethernet ∨
          !isPort wifi ∨ ethernet = wifi then
        .error "invalid qBittorrent Ethernet/Wi-Fi peer ports"
      else .ok (some (.links ethernet wifi))
    | _, _ => .error "invalid qBittorrent Ethernet/Wi-Fi peer ports"
  | _ => .ok none

/-- The checks of `slots`; one slot only where `single` holds. -/
def parseSlots (s : Settings) (assignedSlots : List ℕ) (single : Bool) (policy : Object) :
    Except String (List ℕ) :=
  let refused := "invalid, duplicate or missing reserved application network slots"
  match field policy "slots" with
  | some (.list items) =>
    match items.mapM Json.natural? with
    | some slots =>
      if ¬(1 ≤ slots.length ∧ slots.length ≤ s.maxLeases) ∨
          ¬(slots.all fun slot => slot < s.maxLeases) ∨ ¬slots.Nodup ∨
          slots.any (· ∈ assignedSlots) ∨ (single ∧ slots.length ≠ 1) then
        .error refused
      else .ok slots
    | none => .error refused
  | _ => .error refused

/-- The check of `addresses`: they are those of the slots. -/
def parseAddresses (poolFirst : ℕ) (slots : List ℕ) (policy : Object) : Except String (List Text) :=
  let refused := "missing or inconsistent reserved application IPv4 addresses"
  match field policy "addresses" with
  | some (.list items) =>
    match items.mapM Json.text? with
    | some addresses =>
      if addresses ≠ slots.map fun slot => ipv4Text (poolFirst + slot * 4 + 2) then .error refused
      else .ok addresses
    | none => .error refused
  | _ => .error refused

/-- The settings `network`, `block_lan` and `pin_route`, and the port, where `links` is the port
when it is an object. -/
def parseSettings (enabled blockLan pinned rawPort : Json) (links : Option PeerPort) :
    Except String (Bool × Bool × Bool × Option PeerPort) :=
  let refused := "invalid application network settings"
  match enabled, blockLan, pinned with
  | .bool enabled, .bool blockLan, .bool pinned =>
    match rawPort, links with
    | .null, _ => .ok (enabled, blockLan, pinned, none)
    | .object _, links =>
      if !enabled || !pinned then .error refused else .ok (enabled, blockLan, pinned, links)
    | rawPort, _ =>
      match rawPort.natural? with
      | some port =>
        if !isPort port || !enabled || !pinned then .error refused
        else .ok (enabled, blockLan, pinned, some (.single port))
      | none => .error refused
  | _, _, _ => .error refused

/-- The value is a peer port, not `None`. -/
def Json.present : Json → Bool
  | null => false
  | _ => true

/-- The loop over the applications: what it has returned and the sets it has built. -/
structure Parsing where
  apps : List (Text × App)
  paths : List Text
  assignedSlots : List ℕ

/-- `parse_configuration` for one application. -/
def parseApp (s : Settings) (poolFirst : ℕ) (p : Parsing) (member : Text × Json) :
    Except String Parsing := do
  let .object policy := member.2 | .error "invalid application network policy"
  if !isAppName member.1 || !onlyKeys policy policyFields then
    .error "invalid application network policy"
  let some enabled := field policy "network" | .error "invalid application network policy"
  let blockLan := (field policy "block_lan").getD (.bool false)
  let rawPort := (field policy "peer_port").getD .null
  let links ← parseLinks member.1 rawPort
  let rawPinned := (field policy "pin_route").getD (.bool rawPort.present)
  let single := rawPort.present || (match rawPinned with | .bool pinned => pinned | _ => false)
  let slots ← parseSlots s p.assignedSlots single policy
  let addresses ← parseAddresses poolFirst slots policy
  let (enabled, blockLan, pinned, port) ← parseSettings enabled blockLan rawPinned rawPort links
  let .list executables := (field policy "executables").getD (.list [])
    | .error "invalid application network settings"
  if 16 < executables.length then .error "invalid application network settings"
  let paths ← parseExecutables p.paths executables
  pure ⟨p.apps ++ [(member.1, ⟨enabled, blockLan, port, pinned, paths, slots, addresses⟩)],
    p.paths ++ paths, p.assignedSlots ++ slots⟩

/-- What `parse_configuration` returns. -/
structure Configuration where
  desktopUser : Text
  network : Settings
  apps : List (Text × App)

/-- The value is the integer 2. -/
def isVersion (value : Option Json) : Bool :=
  match value with
  | some (.int 2) => true
  | _ => false

/-- `parse_configuration`, where `loads` decodes JSON with all members of an object in order. -/
def parseConfiguration (loads : List UInt8 → Option Json) (raw : List UInt8) :
    Except String Configuration := do
  if 65536 < raw.length then .error "oversized managed network configuration"
  let some conf := loads raw | .error "invalid managed network JSON"
  if !conf.unique then .error "duplicate application network configuration key"
  let refused := "invalid managed network configuration"
  let .object conf := conf | .error refused
  if !hasKeys conf ["version", "desktop_user", "apps", "network"] then .error refused
  let some user := (field conf "desktop_user").bind Json.text? | .error refused
  let some (.object apps) := field conf "apps" | .error refused
  if !isVersion (field conf "version") || !isUser user || user = "root".toList ||
      decide (128 < apps.length) then
    .error refused
  let some network := field conf "network" | .error refused
  let settings ← parseNetwork network
  let some pool := strictIpv4Network settings.ipv4Cidr | .error refused
  let p ← apps.foldlM (parseApp settings (first pool)) ⟨[], [], []⟩
  pure ⟨user, settings, p.apps⟩

end Preseed.AppPolicy
