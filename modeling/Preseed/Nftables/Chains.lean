import Preseed.Nftables.InputChain

/-!
# The other chains

The output and forward chains of `render_filter` and the rules of `render_nat`, in the
order in which they are added to each chain.
-/

namespace Preseed.Nftables

open Preseed.Networks

/-! ## Outbound rules -/

/-- The source ports of `port_match`. -/
def sourcePortMatch (proto : Proto) (ports : List Ports) : List Match :=
  if ports = [] then [] else [.sport proto ports]

/-- `build_outbound_rules_for_ip_version`. -/
def buildOutboundRulesForIpVersion (groups : Groups) (spec : OutboundSpec) (proto : Proto)
    (version : Version) : Option (List Rule) := do
  let ipExprs ← ipMatchExprs groups spec.allowTo version .destination
  if ipExprs = [] then return []
  let ifaceExprs ← interfaceMatchExprs groups spec.allowTo.interfaces spec.allowTo.interfaceGroups
  return ifaceExprs.flatMap fun iface => ipExprs.map fun ip =>
    { conditions :=
        (iface.map Match.oifname).toList ++ (ip.map Match.address).toList ++
          portMatch proto spec.ports ++ sourcePortMatch proto spec.sourcePorts
      statement := .accept }

/-- The rules of an outbound service or an egress rule. -/
def outboundRules (groups : Groups) (spec : OutboundSpec) : Option (List Rule) :=
  if spec.enabled && !(spec.ports.isEmpty && spec.sourcePorts.isEmpty) then
    (spec.protocols.mapM fun proto => do
      let v4 ← buildOutboundRulesForIpVersion groups spec proto .v4
      let v6 ← buildOutboundRulesForIpVersion groups spec proto .v6
      return v4 ++ v6).map List.flatten
  else some []

/-- The outbound part of a service; `allow` stands for an absent `allow_to`. -/
def Service.outboundSpec (service : Service) : OutboundSpec where
  name := service.name
  enabled := service.enabled && service.direction != .inbound
  protocols := service.protocols
  ports := service.ports
  sourcePorts := service.sourcePorts
  allowTo := service.allowTo.getD service.allow

/-- `egress_rule_enabled`. -/
def egressRuleEnabled (egress : Egress) (name : String) : Bool :=
  egress.rules.any fun rule => rule.name == name && rule.enabled

/-- Accept rules for the groups of all addresses. -/
def anyDestinationRules (groups : Groups) (conditions : List Match) : List Rule :=
  groupRule groups .v4 .destination "any_ipv4" [] conditions .accept ++
    groupRule groups .v6 .destination "any_ipv6" [] conditions .accept

/-- The rules for the booleans of an enforced egress policy. -/
def builtinEgressRules (policy : Policy) : List Rule :=
  let groups := policy.groups
  let egress := policy.egress
  whenRule egress.enforced
    (whenRule (egress.allowDns && !egressRuleEnabled egress "dns")
      (anyDestinationRules groups [.dport [.tcp] [⟨53, 53⟩]] ++
        anyDestinationRules groups [.dport [.udp] [⟨53, 53⟩]]) ++
      whenRule (egress.allowNtp && !egressRuleEnabled egress "ntp")
        (anyDestinationRules groups [.dport [.udp] [⟨123, 123⟩]]) ++
      whenRule (egress.allowHttpHttps && !egressRuleEnabled egress "http_https")
        (anyDestinationRules groups [.dport [.tcp] [⟨80, 80⟩, ⟨443, 443⟩]]))

/-- The output chain. -/
def renderOutput (policy : Policy) (guards : List Guard) : Option (List Rule) := do
  let groups := policy.groups
  let services ← policy.services.mapM fun service => outboundRules groups service.outboundSpec
  let egress ← policy.egress.rules.mapM (outboundRules groups)
  return whenRule policy.dropInvalid [⟨[.state [.invalid]], .drop⟩] ++
    (guards.filter (!·.inbound)).flatMap Guard.jumps ++
    whenRule policy.allowEstablishedRelated [⟨[.state [.established, .related]], .accept⟩] ++
    whenRule policy.allowLoopback [⟨[.oifname (loopbackSet groups)], .accept⟩] ++
    whenRule policy.allowIpv6NeighborDiscovery
      [⟨[.icmp .icmpv6 ["nd-neighbor-solicit", "nd-neighbor-advert", "nd-router-solicit",
        "nd-router-advert"]], .accept⟩] ++
    whenRule policy.icmpv4.isSome [⟨[.protocol .icmp], .accept⟩] ++
    whenRule policy.icmpv6.isSome [⟨[.protocol .icmpv6], .accept⟩] ++
    (match policy.desktopIpv6 with
      | none => []
      | some desktop =>
          whenRule desktop.accountOutput
            (groupRule groups .v6 .source desktop.hostCidrGroup [] [] .pass)) ++
    [⟨[], .jump policy.chainNames.localOutput⟩] ++
    (match policy.egress.audit with
      | none => []
      | some rate => whenRule (!policy.egress.enforced) [⟨rateMatch rate, .pass⟩]) ++
    services.flatten ++ egress.flatten ++ builtinEgressRules policy ++
    whenRule policy.egress.enforced
      ([⟨[.packetType [.broadcast, .multicast]], .drop⟩,
        ⟨[addressRule .v4 .destination multicast4], .drop⟩,
        ⟨[addressRule .v6 .destination multicast6], .drop⟩] ++ dropLogRules policy .output)

/-! ## Forwarding -/

/-- `fd6b:bbad:cd4e:104::2`. -/
def netkitPeer6 : Network :=
  ⟨.v6, 128, 0xfd6bbbadcd4e0104 * 2 ^ 64 + 2, by decide, by decide⟩

/-- The forward rules of `tailscale_netkit_rules`, for one address of the peer. -/
def netkitForwardRules (netkit : Netkit) (peer : Network) : List Rule :=
  [⟨[.iifname (.direct [netkit.interface]), addressRule peer.version .source peer,
      .oifname (.direct netkit.physicalInterfaces)], .accept⟩,
    ⟨[.iifname (.direct netkit.physicalInterfaces), .oifname (.direct [netkit.interface]),
      addressRule peer.version .destination peer,
      .dport [.udp] [⟨netkit.udpPort, netkit.udpPort⟩], .dnat], .accept⟩]

/-- Groups, and the direct networks if there are any. -/
def withDirect (refs : List AddressSet) (direct : List Network) : List AddressSet :=
  refs ++ if direct = [] then [] else [AddressSet.direct direct]

/-- The address matches of one side of a forwarding rule. -/
def sideMatches (role : Role) (refs : List AddressSet) (direct : List Network) : List Match :=
  (withDirect (refs.take 1) direct).map fun set => Match.address ⟨.v4, role, set⟩

/-- One rule of `forwarding.rules`; several groups on a side are an error. -/
def forwardRules (groups : Groups) (rule : ForwardRule) : Option (List Rule) := do
  if rule.enabled = false then return []
  let froms ← interfaceMatchExprs groups rule.fromInterfaces rule.fromInterfaceGroups
  let tos ← interfaceMatchExprs groups rule.toInterfaces rule.toInterfaceGroups
  let sources ← cidrRefs groups .v4 rule.sourceIpv4Groups
  let destinations ← cidrRefs groups .v4 rule.destinationIpv4Groups
  guard (sources.length ≤ 1 ∧ destinations.length ≤ 1)
  let directSources ← directCidrsForVersion .v4 rule.sourceIpv4
  let directDestinations ← directCidrsForVersion .v4 rule.destinationIpv4
  return froms.flatMap fun fi => tos.map fun ti =>
    ⟨(fi.map Match.iifname).toList ++ (ti.map Match.oifname).toList ++
      sideMatches .source sources directSources ++
      sideMatches .destination destinations directDestinations, .accept⟩

/-- `forwarding.enabled` or `forwarding.router_mode`. -/
def Forwarding.active (forwarding : Forwarding) : Bool :=
  forwarding.enabled || forwarding.routerMode

/-- The rules of `forwarding.rules`. -/
def forwardingRules (groups : Groups) (forwarding : Forwarding) : Option (List Rule) :=
  if forwarding.active then (forwarding.rules.mapM (forwardRules groups)).map List.flatten
  else some []

/-- The outbound rules of a container. -/
def containerRules (groups : Groups) (active : Bool) (wan : List (Option InterfaceSet))
    (container : Container) : Option (List Rule) :=
  if container.enabled && container.allowContainerOutbound && active then do
    let exprs ← interfaceMatchExprs groups container.interfaces container.interfaceGroups
    return (exprs.filterMap id).flatMap fun set => (wan.filterMap id).map fun uplink =>
      ⟨[.iifname set, .oifname uplink], .accept⟩
  else some []

/-- The forward chain. -/
def renderForward (policy : Policy) : Option (List Rule) := do
  let groups := policy.groups
  let forwarding := policy.forwarding
  let forwards ← forwardingRules groups forwarding
  let wan ← interfaceMatchExprs groups policy.wanInterfaces
    (if policy.wanInterfaces = [] then ["wan"] else [])
  let containers ← policy.containers.mapM (containerRules groups forwarding.active wan)
  return whenRule policy.dropInvalid [⟨[.state [.invalid]], .drop⟩] ++
    [⟨[.iifname (.direct policy.appInterfaces)], .accept⟩,
      ⟨[.oifname (.direct policy.appInterfaces)], .accept⟩] ++
    (match policy.tailscaleNetkit with
      | none => []
      | some netkit =>
          netkitForwardRules netkit netkitPeer ++ netkitForwardRules netkit netkitPeer6) ++
    whenRule policy.allowEstablishedRelated [⟨[.state [.established, .related]], .accept⟩] ++
    [⟨[], .jump policy.chainNames.localForward⟩] ++
    whenRule (forwarding.active && forwarding.allowEstablishedRelated)
      [⟨[.state [.established, .related]], .accept⟩] ++
    forwards ++ containers.flatten ++ dropLogRules policy .forward

/-! ## Address translation -/

inductive NatAction
  | masquerade
  | dnat (version : Version) (address : ℕ) (port : Ports)
  deriving DecidableEq

structure NatRule where
  conditions : List Match
  action : NatAction

/-- The chains of the address translation table. -/
structure NatTable where
  postrouting : List NatRule
  prerouting : List NatRule

/-- The masquerading rules of `render_nat`. -/
def masqueradeRules (groups : Groups) (masquerade : Masquerade) : Option (List NatRule) := do
  if masquerade.enabled = false then return []
  let outs ← interfaceMatchExprs groups masquerade.outInterfaces
    (if masquerade.outInterfaceGroup = "" then [] else [masquerade.outInterfaceGroup])
  let refs ← cidrRefs groups .v4 masquerade.sourceIpv4Groups
  let direct ← directCidrsForVersion .v4 masquerade.sourceIpv4
  return outs.flatMap fun out => (withDirect refs direct).map fun set =>
    ⟨(out.map Match.oifname).toList ++ [.address ⟨.v4, .source, set⟩], .masquerade⟩

/-- `render_nat`. -/
def renderNat (policy : Policy) : Option NatTable :=
  if policy.nat.enabled then do
    let postrouting ← masqueradeRules policy.groups policy.nat.masquerade
    return { postrouting := postrouting
             prerouting := (policy.nat.dnatRules.filter DnatRule.enabled).map fun rule =>
               ⟨[.dport [rule.proto] [rule.publicPort]],
                 .dnat rule.targetVersion rule.targetIp rule.targetPort⟩ }
  else some ⟨[], []⟩

end Preseed.Nftables
