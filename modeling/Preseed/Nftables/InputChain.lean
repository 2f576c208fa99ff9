import Preseed.Nftables.ServiceRules

/-!
# The input chain

`build_allowlist_guards` and the input rules of `render_filter`, in the order in
which they are rendered, and the way of a packet through them. The guards of
enforced allowlists come before every rule that can accept a packet from an
interface that is not reserved, so no later rule can accept what they drop.
-/

namespace Preseed.Nftables

open Preseed.Networks List

/-! ## Guards -/

/-- The guard of an enforced allowlist. -/
structure Guard where
  chain : String
  rules : List Rule
  /-- The jumps to the guard, in the input chain of an inbound service. -/
  jumps : List Rule
  inbound : Bool

/-- `NFT_IDENT_RE`. -/
def isNftIdentifier (text : String) : Bool :=
  match text.toList with
  | [] => false
  | first :: rest =>
      (first.isAlpha || first == '_') && rest.all fun char => char.isAlphanum || char == '_'

def directionText (inbound : Bool) : String := if inbound then "inbound" else "outbound"

def guardName (service : Service) : String :=
  "allow_" ++ service.name ++ "_" ++ directionText (service.direction == .inbound)

/-- The matches of the permitted peers of a guard. -/
def guardMatches (groups : Groups) (service : Service) : Option (List (List Match)) := do
  let inbound := service.direction == .inbound
  let allow := if inbound then service.allow else service.allowTo.getD Allow.empty
  let role := if inbound then Role.source else .destination
  guard (allowHasAnyIpConstraints allow)
  let interfaces ← interfaceMatchExprs groups allow.interfaces allow.interfaceGroups
  guard (interfaces ≠ [none])
  let v4 ← ipMatchExprs groups allow .v4 role
  let v6 ← ipMatchExprs groups allow .v6 role
  let keyword := if inbound then Match.iifname else .oifname
  return (v4 ++ v6).flatMap fun ip => interfaces.map fun iface =>
    (iface.map keyword).toList ++ (ip.map Match.address).toList

/-- The guard of one service in `build_allowlist_guards`. -/
def buildGuard (policy : Policy) (service : Service) : Option Guard := do
  guard (service.direction ≠ .bidirectional)
  guard (service.ports ≠ [] ∧ service.sourcePorts = [])
  let permitted ← guardMatches policy.groups service
  guard (permitted ≠ [])
  guard (isNftIdentifier (guardName service) = true)
  guard (guardName service ∉ policy.chainNames.all)
  return { chain := guardName service
           rules := permitted.map (fun conditions => ⟨conditions, .return⟩) ++ [⟨[], .drop⟩]
           jumps := service.protocols.map fun proto =>
             ⟨portMatch proto service.ports, .jump (guardName service)⟩
           inbound := service.direction == .inbound }

/-- The services with an enforced allowlist. -/
def Service.enforced (service : Service) : Bool := service.enabled && service.enforceAllowlist

/-- `build_allowlist_guards`. -/
def buildAllowlistGuards (policy : Policy) : Option (List Guard) :=
  (policy.services.filter Service.enforced).mapM (buildGuard policy)

/-! ## The other rules -/

/-- A rule for the constant of a group, if the group has values. -/
def groupRule (groups : Groups) (version : Version) (role : Role) (name : String)
    (before after : List Match) (statement : Statement) : List Rule :=
  match cidrGroup groups version name with
  | none => []
  | some values =>
      [⟨before ++ [.address ⟨version, role, .group name values⟩] ++ after, statement⟩]

/-- `10.255.253.2`, `127.0.0.1` and the multicast families. -/
def netkitPeer : Network :=
  ⟨.v4, 32, 10 * 2 ^ 24 + 255 * 2 ^ 16 + 253 * 2 ^ 8 + 2, whole_v4, by decide⟩

def loopbackHost : Network := ⟨.v4, 32, 127 * 2 ^ 24 + 1, whole_v4, by decide⟩

def multicast4 : Network := ⟨.v4, 4, 14, by decide, by decide⟩

def multicast6 : Network := ⟨.v6, 8, 255, by decide, by decide⟩

def addressRule (version : Version) (role : Role) (net : Network) : Match :=
  .address ⟨version, role, .direct [net]⟩

def whenRule (condition : Bool) (rules : List Rule) : List Rule := if condition then rules else []

/-- The rules for reserved interfaces, which earlier hooks guard. -/
def reservedRules (policy : Policy) : List Rule :=
  [⟨[.iifname (.direct policy.appInterfaces), addressRule .v4 .destination policy.appDnsHostAddress,
      .dport [.tcp, .udp] [⟨policy.appDnsHostPort, policy.appDnsHostPort⟩], .dnat], .accept⟩] ++
    whenRule (!policy.webTlsPorts.isEmpty)
      [⟨[.iifname (.direct policy.appInterfaces),
        .dport [.tcp] (policy.webTlsPorts.map fun port => ⟨port, port⟩)], .accept⟩] ++
    match policy.tailscaleNetkit with
    | none => []
    | some netkit =>
        [⟨[.iifname (.direct [netkit.interface]), addressRule .v4 .source netkitPeer,
          addressRule .v4 .destination loopbackHost,
          .dport [.tcp, .udp] [⟨netkit.dnsHostPort, netkit.dnsHostPort⟩], .dnat], .accept⟩]

/-- The constant of the loopback group, or the loopback interface. -/
def loopbackSet (groups : Groups) : InterfaceSet :=
  match interfaceGroup groups "loopback" with
  | none => .direct ["lo"]
  | some patterns =>
      if exactNames patterns = [] then .direct ["lo"] else .group "loopback" (exactNames patterns)

/-- The networks of one category of sources. -/
def dropSets (groups : Groups) (category : DropSources) : Option (List AddressMatch) := do
  let refs ← cidrRefs groups category.version category.sourceGroups
  let direct ← directCidrsForVersion category.version category.sources
  let sets := refs ++ if direct = [] then [] else [.direct direct]
  return sets.map fun set => ⟨category.version, .source, set⟩

def dropRules (iface : Option InterfaceSet) (addresses : List AddressMatch) : List Rule :=
  addresses.map fun addresses =>
    ⟨(iface.map Match.iifname).toList ++ [.address addresses], .drop⟩

/-- `build_source_filter_drop_rules`. -/
def buildSourceFilterDropRules (groups : Groups) : Option SourceFilter → Option (List Rule)
  | none => some []
  | some filter => do
      let ifaces ← interfaceMatchExprs groups filter.interfaces filter.interfaceGroups
      let categories ← filter.categories.mapM (dropSets groups)
      return categories.flatMap fun addresses => ifaces.flatMap fun iface =>
        dropRules iface addresses

/-- The anti-spoofing rules, which need an interface. -/
def antiSpoofingRules (groups : Groups) : Option SourceFilter → Option (List Rule)
  | none => some []
  | some filter => do
      let ifaces ← interfaceMatchExprs groups filter.interfaces filter.interfaceGroups
      let categories ← filter.categories.mapM (dropSets groups)
      return (ifaces.filter Option.isSome).flatMap fun iface => categories.flatMap fun addresses =>
        dropRules iface addresses

/-- The match of a rate, unless it is blank. -/
def rateMatch (rate : Option String) : List Match := (rate.map Match.rate).toList

/-- The rules after the guards and before the services. -/
def baseRules (policy : Policy) : Option (List Rule) := do
  let groups := policy.groups
  let sources ← buildSourceFilterDropRules groups policy.sourceFiltering
  let spoofed ← antiSpoofingRules groups policy.antiSpoofing
  return whenRule policy.allowEstablishedRelated [⟨[.state [.established, .related]], .accept⟩] ++
    whenRule policy.allowLoopback [⟨[.iifname (loopbackSet groups)], .accept⟩] ++
    whenRule policy.dropLoopbackOnNonLoopback
      (groupRule groups .v4 .source "localhost_ipv4" [.iifnameNot "lo"] [] .drop ++
        groupRule groups .v6 .source "localhost_ipv6" [.iifnameNot "lo"] [] .drop) ++
    whenRule policy.allowDhcpClient
      [⟨[.sport .udp [⟨67, 67⟩], .dport [.udp] [⟨68, 68⟩]], .accept⟩,
        ⟨[.sport .udp [⟨547, 547⟩], .dport [.udp] [⟨546, 546⟩]], .accept⟩] ++
    sources ++
    whenRule policy.unsafeSourceFiltering
      (groupRule groups .v4 .source "unsafe_ipv4_sources" [] [] .drop ++
        groupRule groups .v6 .source "unsafe_ipv6_sources" [] [] .drop) ++
    whenRule policy.allowIpv6NeighborDiscovery
      [⟨[.icmp .icmpv6 ["nd-neighbor-solicit", "nd-neighbor-advert", "nd-router-solicit",
        "nd-router-advert"]], .accept⟩] ++
    spoofed ++
    (match policy.icmpv4 with
      | none => []
      | some rate =>
          [⟨.icmp .icmp ["echo-request", "destination-unreachable", "time-exceeded",
            "parameter-problem"] :: rateMatch rate, .accept⟩]) ++
    (match policy.icmpv6 with
      | none => []
      | some rate =>
          [⟨.icmp .icmpv6 ["echo-request", "echo-reply", "destination-unreachable",
            "packet-too-big", "time-exceeded", "parameter-problem"] :: rateMatch rate, .accept⟩]) ++
    (match policy.desktopIpv6 with
      | none => []
      | some desktop =>
          whenRule desktop.accountInput
            (groupRule groups .v6 .destination desktop.hostCidrGroup [] [] .pass)) ++
    [⟨[], .jump policy.chainNames.localInput⟩]

/-- The rule of a chain in `build_drop_log_rules`. -/
def dropLogRules (policy : Policy) (chain : LogChain) : List Rule :=
  match policy.dropLog with
  | none => []
  | some log => whenRule (log.chains.contains chain) [⟨rateMatch log.limit, .pass⟩]

/-- The rules after the services. -/
def finalRules (policy : Policy) : List Rule :=
  [⟨[.packetType [.broadcast, .multicast]], .drop⟩,
    ⟨[addressRule .v4 .destination multicast4], .drop⟩,
    ⟨[addressRule .v6 .destination multicast6], .drop⟩] ++
    dropLogRules policy .input

/-- The input chain and the guards of a filter. -/
structure Filter where
  input : List Rule
  guards : List Guard

/-- The input chain of `render_filter`. -/
def renderFilter (policy : Policy) : Option Filter := do
  let guards ← buildAllowlistGuards policy
  let base ← baseRules policy
  let services ← policy.services.mapM (inboundServiceRules policy.groups)
  return { input :=
             whenRule policy.dropInvalid [⟨[.state [.invalid]], .drop⟩] ++ reservedRules policy ++
               (guards.filter Guard.inbound).flatMap Guard.jumps ++ (base ++ services.flatten ++
                 finalRules policy)
           guards := guards }

/-! ## The way of a packet -/

/-- The verdict of a chain; the calling chain goes on after `next`. -/
inductive Verdict
  | accept | drop | next
  deriving DecidableEq

/-- A packet in a chain, with the verdicts of the chains that are jumped to. -/
def evalChain (chains : String → Verdict) (packet : Packet) : List Rule → Verdict
  | [] => .next
  | rule :: rules =>
      if rule.holds packet then
        match rule.statement with
        | .accept => .accept
        | .drop => .drop
        | .return => .next
        | .pass => evalChain chains packet rules
        | .jump chain =>
            match chains chain with
            | .accept => .accept
            | .drop => .drop
            | .next => evalChain chains packet rules
      else evalChain chains packet rules

/-- The rules that were added to a guard. -/
def Filter.guardRules (filter : Filter) (chain : String) : List Rule :=
  (filter.guards.filter (·.chain = chain)).flatMap Guard.rules

/-- The verdict of a chain that the input chain jumps to; the local hook is not part of
the filter. -/
def Filter.jumped (filter : Filter) (policy : Policy) (localInput : Packet → Verdict)
    (packet : Packet) (chain : String) : Verdict :=
  if chain = policy.chainNames.localInput then localInput packet
  else evalChain (fun _ => .next) packet (filter.guardRules chain)

/-- The packet is accepted by the input chain. -/
def Filter.accepts (filter : Filter) (policy : Policy) (localInput : Packet → Verdict)
    (packet : Packet) : Bool :=
  match evalChain (filter.jumped policy localInput packet) packet filter.input with
  | .accept => true
  | .drop => false
  | .next => policy.inputAccepts

/-! ## Acceptance -/

theorem evalChain_cons (chains : String → Verdict) (packet : Packet) (rule : Rule)
    (rules : List Rule) : evalChain chains packet (rule :: rules) =
      if rule.holds packet then
        match rule.statement with
        | .accept => .accept
        | .drop => .drop
        | .return => .next
        | .pass => evalChain chains packet rules
        | .jump chain =>
            match chains chain with
            | .accept => .accept
            | .drop => .drop
            | .next => evalChain chains packet rules
      else evalChain chains packet rules :=
  rfl

/-- A rule neither accepts a packet nor leaves the chain with it. -/
def Rule.refuses (chains : String → Verdict) (packet : Packet) (rule : Rule) : Prop :=
  rule.holds packet = true → rule.statement = .drop ∨
    ∃ chain, rule.statement = .jump chain ∧ chains chain ≠ .accept

variable {packet : Packet} {chains : String → Verdict}

/-- What is dropped after rules that refuse a packet is dropped. -/
theorem evalChain_refuses {before after : List Rule}
    (hbefore : ∀ rule ∈ before, rule.refuses chains packet)
    (hafter : evalChain chains packet after = .drop) :
    evalChain chains packet (before ++ after) = .drop := by
  induction before with
  | nil => exact hafter
  | cons rule before ih =>
    have hrest := ih fun other hother => hbefore other (mem_cons_of_mem _ hother)
    have hrule := hbefore rule (mem_cons_self ..)
    rw [cons_append, evalChain_cons]
    split
    · rename_i hholds
      rcases hrule hholds with hdrop | ⟨chain, hjump, hchain⟩
      · rw [hdrop]
      · rw [hjump]
        simp only
        cases hverdict : chains chain with
        | accept => exact absurd hverdict hchain
        | drop => rfl
        | next => exact hrest
    · exact hrest

/-- A chain that only returns and drops does not accept. -/
theorem evalChain_ne_accept {rules : List Rule}
    (h : ∀ rule ∈ rules, rule.statement = .return ∨ rule.statement = .drop) :
    evalChain chains packet rules ≠ .accept := by
  induction rules with
  | nil => exact fun h => nomatch h
  | cons rule rules ih =>
    have hrest := ih fun other hother => h other (mem_cons_of_mem _ hother)
    rw [evalChain_cons]
    split
    · rcases h rule (mem_cons_self ..) with hstatement | hstatement
      · rw [hstatement]
        exact fun h => nomatch h
      · rw [hstatement]
        exact fun h => nomatch h
    · exact hrest

/-- Rules that only return end in a drop when none of them holds. -/
theorem evalChain_returns {permitted : List (List Match)}
    (h : ∀ conditions ∈ permitted, Rule.holds ⟨conditions, .return⟩ packet = false) :
    evalChain chains packet (permitted.map (fun conditions => ⟨conditions, .return⟩) ++
      [⟨[], .drop⟩]) = .drop := by
  induction permitted with
  | nil => rfl
  | cons conditions permitted ih =>
    rw [map_cons, cons_append, evalChain_cons]
    rw [h conditions (mem_cons_self ..), if_neg (by decide)]
    exact ih fun other hother => h other (mem_cons_of_mem _ hother)

/-! ## Guards of services -/

/-- What is built for a service. -/
structure GuardFor (policy : Policy) (service : Service) (built : Guard) : Prop where
  chain : built.chain = guardName service
  free : guardName service ∉ policy.chainNames.all
  ports : service.ports ≠ []
  rules : ∃ permitted, guardMatches policy.groups service = some permitted ∧
    built.rules = permitted.map (fun conditions => ⟨conditions, .return⟩) ++ [⟨[], .drop⟩]
  jumps : built.jumps = service.protocols.map fun proto =>
    ⟨portMatch proto service.ports, .jump (guardName service)⟩
  inbound : built.inbound = (service.direction == .inbound)

theorem buildGuard_eq_some {policy : Policy} {service : Service} {built : Guard}
    (h : buildGuard policy service = some built) : GuardFor policy service built := by
  simp only [buildGuard, Option.bind_eq_bind, Option.bind_eq_some_iff, Option.guard_eq_some'] at h
  obtain ⟨_, _, _, ⟨hports, _⟩, permitted, hpermitted, _, _, _, _, _, hfree, h⟩ := h
  cases h
  exact ⟨rfl, hfree, hports, ⟨permitted, hpermitted, rfl⟩, rfl, rfl⟩

/-- Guards of different services have different names. -/
theorem guardName_inj {left right : Service} (h : guardName left = guardName right) :
    left.name = right.name := by
  unfold guardName at h
  have hlist := congrArg String.toList h
  simp only [String.toList_append] at hlist
  rw [append_assoc, append_assoc, append_assoc, append_assoc] at hlist
  have htail := append_cancel_left hlist
  apply String.toList_inj.mp
  cases hleft : (left.direction == .inbound) <;> cases hright : (right.direction == .inbound) <;>
    rw [hleft, hright] at htail
  · exact append_cancel_right htail
  · have hsuffix := congrArg (fun chars => chars.reverse.take 8) htail
    simp [directionText] at hsuffix
  · have hsuffix := congrArg (fun chars => chars.reverse.take 8) htail
    simp [directionText] at hsuffix
  · exact append_cancel_right htail

/-- The guard of a service is the only one with its name. -/
theorem filter_guards {policy : Policy} {services : List Service} {guards : List Guard}
    (hnodup : (services.map Service.name).Nodup)
    (hguards : services.mapM (buildGuard policy) = some guards) {service : Service}
    (hmem : service ∈ services) {built : Guard} (hbuilt : buildGuard policy service = some built) :
    guards.filter (·.chain = guardName service) = [built] := by
  induction services generalizing guards with
  | nil => cases hmem
  | cons first services ih =>
    simp only [mapM_cons, Option.bind_eq_bind, Option.bind_eq_some_iff] at hguards
    obtain ⟨guarding, hfirst, rest, hrest, hguards⟩ := hguards
    cases hguards
    rw [map_cons, nodup_cons] at hnodup
    have hchain := (buildGuard_eq_some hfirst).chain
    rcases mem_cons.mp hmem with rfl | hmem
    · obtain rfl := Option.some.inj (hfirst.symm.trans hbuilt)
      rw [filter_cons_of_pos (by simpa using hchain)]
      congr 1
      rw [filter_eq_nil_iff]
      intro other hother
      obtain ⟨owner, howner, hsome⟩ := mem_of_mapM hrest hother
      simp only [decide_eq_true_eq]
      intro hsame
      rw [(buildGuard_eq_some hsome).chain] at hsame
      refine hnodup.1 ?_
      rw [← guardName_inj hsame]
      exact mem_map_of_mem howner
    · have hother : ¬guarding.chain = guardName service := by
        rw [hchain]
        intro hsame
        refine hnodup.1 ?_
        rw [guardName_inj hsame]
        exact mem_map_of_mem hmem
      rw [filter_cons_of_neg (by simpa using hother)]
      exact ih hnodup.2 hrest hmem

section

variable {policy : Policy} {filter : Filter} {service : Service}

/-- The parts of a rendered input chain. -/
theorem renderFilter_eq_some (h : renderFilter policy = some filter) :
    buildAllowlistGuards policy = some filter.guards ∧ ∃ rest, filter.input =
      (whenRule policy.dropInvalid [⟨[.state [.invalid]], .drop⟩] ++ reservedRules policy) ++
        (filter.guards.filter Guard.inbound).flatMap Guard.jumps ++ rest := by
  simp only [renderFilter, Option.bind_eq_bind, Option.bind_eq_some_iff] at h
  obtain ⟨guards, hguards, base, _, services, _, h⟩ := h
  cases h
  exact ⟨hguards, _, rfl⟩

theorem guardRules_of_enforced (h : renderFilter policy = some filter)
    (hmem : service ∈ policy.services) (henforced : service.enforced = true) :
    ∃ built ∈ filter.guards, GuardFor policy service built ∧
      filter.guardRules (guardName service) = built.rules := by
  obtain ⟨hguards, -⟩ := renderFilter_eq_some h
  have hfiltered : service ∈ policy.services.filter Service.enforced :=
    mem_filter.mpr ⟨hmem, henforced⟩
  have hnodup : ((policy.services.filter Service.enforced).map Service.name).Nodup :=
    policy.distinct.sublist (filter_sublist.map _)
  obtain ⟨built, hbuiltMem, hbuilt⟩ := mapM_mem hguards hfiltered
  refine ⟨built, hbuiltMem, buildGuard_eq_some hbuilt, ?_⟩
  rw [Filter.guardRules, filter_guards hnodup hguards hfiltered hbuilt]
  simp

theorem exists_guardFor (h : renderFilter policy = some filter) {built : Guard}
    (hmem : built ∈ filter.guards) : ∃ service, GuardFor policy service built := by
  obtain ⟨hguards, -⟩ := renderFilter_eq_some h
  obtain ⟨service, -, hservice⟩ := mem_of_mapM hguards hmem
  exact ⟨service, buildGuard_eq_some hservice⟩

/-- No guard accepts. -/
theorem jumped_ne_accept (h : renderFilter policy = some filter) (localInput : Packet → Verdict)
    (packet : Packet) {built : Guard} (hmem : built ∈ filter.guards) :
    filter.jumped policy localInput packet built.chain ≠ .accept := by
  obtain ⟨service, hbuilt⟩ := exists_guardFor h hmem
  have hlocal : built.chain ≠ policy.chainNames.localInput := by
    rw [hbuilt.chain]
    intro heq
    exact hbuilt.free (by rw [heq]; simp [ChainNames.all])
  unfold Filter.jumped
  rw [if_neg hlocal]
  refine evalChain_ne_accept fun rule hrule => ?_
  obtain ⟨other, hother, hin⟩ := mem_flatMap.mp hrule
  obtain ⟨owner, howner⟩ := exists_guardFor h (mem_filter.mp hother).1
  obtain ⟨permitted, -, hpermitted⟩ := howner.rules
  rw [hpermitted] at hin
  rcases mem_append.mp hin with hin | hin
  · obtain ⟨conditions, -, rfl⟩ := mem_map.mp hin
    exact Or.inl rfl
  · obtain rfl := mem_singleton.mp hin
    exact Or.inr rfl

/-- A packet from an interface that is not reserved. -/
structure Unreserved (policy : Policy) (packet : Packet) : Prop where
  app : packet.iifname ∉ policy.appInterfaces
  netkit : ∀ netkit, policy.tailscaleNetkit = some netkit → packet.iifname ≠ netkit.interface

/-- The rules before the guards refuse such a packet. -/
theorem early_refuse {chains : String → Verdict} {packet : Packet} (h : Unreserved policy packet) :
    ∀ rule ∈ whenRule policy.dropInvalid [⟨[.state [.invalid]], .drop⟩] ++ reservedRules policy,
      rule.refuses chains packet := by
  have hinterface : ∀ (names : List String) (conditions : List Match) (statement : Statement),
      packet.iifname ∉ names →
      Rule.refuses chains packet ⟨.iifname (.direct names) :: conditions, statement⟩ := by
    intro names conditions statement hnot hholds
    simp only [Rule.holds, all_cons, Match.holds, InterfaceSet.has, Bool.and_eq_true,
      contains_iff_mem] at hholds
    exact absurd hholds.1 hnot
  intro rule hrule
  rcases mem_append.mp hrule with hrule | hrule
  · unfold whenRule at hrule
    split at hrule
    · obtain rfl := mem_singleton.mp hrule
      exact fun _ => Or.inl rfl
    · cases hrule
  · unfold reservedRules at hrule
    rcases mem_append.mp hrule with hrule | hrule
    · rcases mem_append.mp hrule with hrule | hrule
      · obtain rfl := mem_singleton.mp hrule
        exact hinterface _ _ _ h.app
      · unfold whenRule at hrule
        split at hrule
        · obtain rfl := mem_singleton.mp hrule
          exact hinterface _ _ _ h.app
        · cases hrule
    · cases hnetkit : policy.tailscaleNetkit with
      | none =>
        rw [hnetkit] at hrule
        cases hrule
      | some netkit =>
        rw [hnetkit] at hrule
        obtain rfl := mem_singleton.mp hrule
        refine hinterface _ _ _ ?_
        rw [mem_singleton]
        exact h.netkit netkit hnetkit

/-! ## Permitted packets -/

def Pattern.has : Pattern → String → Bool
  | exact name, iface => name == iface
  | wildcard stem, iface => stem.toList.isPrefixOf iface.toList

/-- An allowlist names an interface, directly or by a group. -/
def Allow.hasInterface (allow : Allow) (groups : Groups) (iface : String) : Prop :=
  (∃ pattern ∈ allow.interfaces, pattern.has iface = true) ∨
    ∃ name ∈ allow.interfaceGroups, ∃ patterns, interfaceGroup groups name = some patterns ∧
      ∃ pattern ∈ patterns, pattern.has iface = true

/-- An allowlist permits a packet: its interface and its source, or a multicast network
as its destination. -/
structure Permits (groups : Groups) (allow : Allow) (packet : Packet) : Prop where
  iface : allow.hasInterface groups packet.iifname
  peer : (∃ net, allow.has groups packet.version net ∧ net.contains packet.saddr) ∨
    ∃ net, allow.has groups packet.version net ∧ isMulticast net = true ∧
      net.contains packet.daddr

variable {patterns : List Pattern}

theorem mem_exactNames {name : String} :
    name ∈ exactNames patterns ↔ .exact name ∈ patterns := by
  rw [exactNames, mem_uniquePreserve, mem_filterMap]
  constructor
  · rintro ⟨pattern, hmem, hname⟩
    cases pattern with
    | exact other =>
      cases hname
      exact hmem
    | wildcard stem => cases hname
  · exact fun hmem => ⟨_, hmem, rfl⟩

theorem mem_wildcardStems {stem : String} :
    stem ∈ wildcardStems patterns ↔ .wildcard stem ∈ patterns := by
  rw [wildcardStems, mem_uniquePreserve, mem_filterMap]
  constructor
  · rintro ⟨pattern, hmem, hstem⟩
    cases pattern with
    | exact name => cases hstem
    | wildcard other =>
      cases hstem
      exact hmem
  · exact fun hmem => ⟨_, hmem, rfl⟩

/-- A set for some patterns matches as one of the patterns. -/
theorem has_of_patterns {names set : InterfaceSet} {iface : String}
    (hset : OfPatterns patterns names set)
    (hnames : names.has iface = (exactNames patterns).contains iface)
    (hhas : set.has iface = true) : ∃ pattern ∈ patterns, pattern.has iface = true := by
  cases hset with
  | exact _ =>
    rw [hnames, contains_iff_mem] at hhas
    exact ⟨.exact iface, mem_exactNames.mp hhas, beq_self_eq_true iface⟩
  | wildcard stem hstem => exact ⟨.wildcard stem, mem_wildcardStems.mp hstem, hhas⟩

variable {groups : Groups}

/-- An interface match of an allowlist matches an interface that the list names. -/
theorem hasInterface_of_mem {allow : Allow} {exprs : List (Option InterfaceSet)}
    {set : InterfaceSet} {iface : String}
    (h : interfaceMatchExprs groups allow.interfaces allow.interfaceGroups = some exprs)
    (hmem : some set ∈ exprs) (hhas : set.has iface = true) :
    allow.hasInterface groups iface := by
  rcases mem_interfaceMatchExprs h hmem with hset | ⟨name, hname, patterns, hpatterns, hset⟩
  · exact Or.inl (has_of_patterns hset rfl hhas)
  · exact Or.inr ⟨name, hname, patterns, hpatterns, has_of_patterns hset rfl hhas⟩

/-- Without interfaces there is one empty expression. -/
theorem interfaces_eq_none {allow : Allow} {exprs : List (Option InterfaceSet)}
    (h : interfaceMatchExprs groups allow.interfaces allow.interfaceGroups = some exprs)
    (hmem : none ∈ exprs) : exprs = [none] := by
  simp only [interfaceMatchExprs, Option.bind_eq_bind, Option.bind_eq_some_iff] at h
  obtain ⟨refs, -, h⟩ := h
  cases h
  generalize uniquePreserve (((if exactNames allow.interfaces = [] then []
    else [InterfaceSet.direct (exactNames allow.interfaces)]) ++
    (wildcardStems allow.interfaces).map InterfaceSet.wildcard) ++ refs) = listed at hmem ⊢
  split at hmem
  · rename_i hempty
    rw [if_pos hempty]
  · simp at hmem

/-- A match of a guard holds only for permitted packets. -/
theorem permits_of_guardMatches (hinbound : service.direction = .inbound)
    {permitted : List (List Match)} (h : guardMatches groups service = some permitted)
    {conditions : List Match} (hmem : conditions ∈ permitted) {packet : Packet}
    (hholds : Rule.holds ⟨conditions, .return⟩ packet = true) :
    Permits groups service.allow packet := by
  have hdirection : (service.direction == .inbound) = true := by rw [hinbound]; rfl
  simp only [guardMatches, hdirection, if_true, Option.bind_eq_bind, Option.bind_eq_some_iff,
    Option.guard_eq_some'] at h
  obtain ⟨_, hconstrained, interfaces, hinterfaces, _, hnone, v4, hv4, v6, hv6, h⟩ := h
  cases h
  obtain ⟨ip, hip, hconditions⟩ := mem_flatMap.mp hmem
  obtain ⟨iface, hiface, rfl⟩ := mem_map.mp hconditions
  have hfamily : ∃ version exprs, ipMatchExprs groups service.allow version .source = some exprs ∧
      ip ∈ exprs := by
    rcases mem_append.mp hip with hip | hip
    · exact ⟨.v4, v4, hv4, hip⟩
    · exact ⟨.v6, v6, hv6, hip⟩
  obtain ⟨version, exprs, hexprs, hip⟩ := hfamily
  obtain ⟨addresses, rfl, hversion, hnetworks, hrole⟩ := mem_ipMatchExprs hexprs hconstrained hip
  obtain ⟨set, rfl⟩ : ∃ set, iface = some set := by
    cases iface with
    | none => exact absurd (interfaces_eq_none hinterfaces hiface) hnone
    | some set => exact ⟨set, rfl⟩
  simp only [Rule.holds, Option.map_some, Option.toList_some, cons_append, nil_append,
    all_cons, all_nil, Match.holds, AddressMatch.holds, Bool.and_true,
    Bool.and_eq_true, decide_eq_true_eq] at hholds
  obtain ⟨hhas, hsame, haddress⟩ := hholds
  obtain ⟨net, hnet, hcontains⟩ := any_eq_true.mp haddress
  have hallowed := hnetworks net hnet
  rw [← hversion, ← hsame] at hallowed
  refine ⟨hasInterface_of_mem hinterfaces hiface hhas, ?_⟩
  rcases hrole with hsource | ⟨direct, hset, hmulticast, hdestination⟩
  · left
    rw [hsource] at hcontains
    exact ⟨net, hallowed, of_decide_eq_true hcontains⟩
  · right
    rw [hdestination] at hcontains
    rw [hset] at hnet
    simp only [networksAreMulticast, Bool.and_eq_true, all_eq_true] at hmulticast
    exact ⟨net, hallowed, hmulticast.2 net hnet, of_decide_eq_true hcontains⟩

end

/-! ## A multicast service -/

/-- An enforced service for one direct network and one interface. -/
def mdnsFor (net : Network) : Service :=
  { sshFor net with
    name := "mdns"
    enforceAllowlist := true
    sensitive := false
    protocols := [.udp]
    ports := [⟨5353, 5353⟩]
    allow := { (sshFor net).allow with interfaces := [.exact "eth0"] } }

/-- A policy whose only service is for one network. -/
def mdnsPolicy (net : Network) : Policy where
  groups := noGroups
  chainNames := ⟨"input", "forward", "output", "local_input", "local_forward", "local_output"⟩
  services := [mdnsFor net]
  dropInvalid := true
  appInterfaces := ["avh0"]
  appDnsHostAddress := loopbackHost
  appDnsHostPort := 53
  webTlsPorts := []
  tailscaleNetkit := none
  allowEstablishedRelated := true
  allowLoopback := true
  dropLoopbackOnNonLoopback := true
  allowDhcpClient := false
  sourceFiltering := none
  unsafeSourceFiltering := false
  allowIpv6NeighborDiscovery := true
  antiSpoofing := none
  icmpv4 := none
  icmpv6 := none
  desktopIpv6 := none
  dropLog := none
  egress :=
    { enforced := false
      audit := none
      rules := []
      allowDns := true
      allowNtp := true
      allowHttpHttps := true }
  forwarding :=
    { enabled := false
      routerMode := false
      allowEstablishedRelated := true
      rules := [] }
  wanInterfaces := [.exact "eth0"]
  containers := []
  nat :=
    { enabled := false
      masquerade :=
        { enabled := false
          outInterfaces := []
          outInterfaceGroup := "wan"
          sourceIpv4Groups := []
          sourceIpv4 := [] }
      dnatRules := [] }
  inputAccepts := false
  distinct := nodup_singleton _

/-- A packet from `192.168.1.9` to `224.0.0.251`. -/
def mdnsQuery : Packet where
  iifname := "eth0"
  oifname := none
  version := .v4
  saddr := 192 * 2 ^ 24 + 168 * 2 ^ 16 + 2 ^ 8 + 9
  daddr := 224 * 2 ^ 24 + 251
  transport := .udp
  sport := 5353
  dport := 5353
  icmpType := ""
  state := .new
  dnat := false
  packetType := .multicast
  withinRate := fun _ => true

end Preseed.Nftables
