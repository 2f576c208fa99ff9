import Preseed.Nftables.Policy

/-!
# Inbound service rules

The accept rules of a service and the check of sensitive services. The check
collapses the networks of a service's allowlist and refuses a whole family; the
rules of a checked service then leave out some source address of each family,
apart from rules for multicast destinations.
-/

namespace Preseed.Nftables

open Preseed.Networks Option List

/-! ## Match expressions -/

def Allow.direct (allow : Allow) : Version → List (Option Network)
  | .v4 => allow.ipv4
  | .v6 => allow.ipv6

def Allow.groups (allow : Allow) : Version → List String
  | .v4 => allow.ipv4Groups
  | .v6 => allow.ipv6Groups

/-- `allow_has_any_ip_constraints`. -/
def allowHasAnyIpConstraints (allow : Allow) : Bool :=
  !allow.ipv4.isEmpty || !allow.ipv6.isEmpty || !allow.ipv4Groups.isEmpty ||
    !allow.ipv6Groups.isEmpty

variable (groups : Groups)

/-- `cidr_refs`: an unknown group is an error. -/
def cidrRefs (version : Version) (names : List String) : Option (List AddressSet) :=
  (names.mapM fun name => (cidrGroup groups version name).map (AddressSet.group name)).map
    uniquePreserve

/-- The network is inside `224.0.0.0/4` or `ff00::/8`. -/
def isMulticast (net : Network) : Bool :=
  match net.version with
  | .v4 => decide (4 ≤ net.prefixLen) && net.index / 2 ^ (net.prefixLen - 4) == 14
  | .v6 => decide (8 ≤ net.prefixLen) && net.index / 2 ^ (net.prefixLen - 8) == 255

def networksAreMulticast (values : List Network) : Bool := !values.isEmpty && values.all isMulticast

/-- `ip_match_exprs`: no expressions when only the other family is constrained, and one
empty expression when none is. -/
def ipMatchExprs (allow : Allow) (version : Version) (role : Role) :
    Option (List (Option AddressMatch)) := do
  let refs ← cidrRefs groups version (allow.groups version)
  let direct ← directCidrsForVersion version (allow.direct version)
  if refs = [] ∧ direct = [] then
    return if allowHasAnyIpConstraints allow then [] else [none]
  let directExprs :=
    if direct = [] then []
    else
      [{ version := version
         role := if networksAreMulticast direct then .destination else role
         set := .direct direct : AddressMatch }]
  return uniquePreserve ((refs.map fun ref => { version := version, role := role, set := ref }) ++
    directExprs) |>.map some

/-- `expand_interface_group_refs`. -/
def expandInterfaceGroupRefs (names : List String) : Option (List InterfaceSet) := do
  let expanded ← names.mapM fun name => do
    let patterns ← interfaceGroup groups name
    let ref :=
      if exactNames patterns = [] then [] else [InterfaceSet.group name (exactNames patterns)]
    return ref ++ (wildcardStems patterns).map InterfaceSet.wildcard
  return uniquePreserve expanded.flatten

/-- `interface_match_exprs`, with one empty expression when no interface is given. -/
def interfaceMatchExprs (interfaces : List Pattern) (names : List String) :
    Option (List (Option InterfaceSet)) := do
  let direct :=
    (if exactNames interfaces = [] then [] else [InterfaceSet.direct (exactNames interfaces)]) ++
      (wildcardStems interfaces).map InterfaceSet.wildcard
  let refs ← expandInterfaceGroupRefs groups names
  let exprs := uniquePreserve (direct ++ refs)
  return if exprs = [] then [none] else exprs.map some

/-- `port_match`. -/
def portMatch (proto : Proto) (ports : List Ports) : List Match :=
  if ports = [] then [] else [.dport [proto] ports]

/-- `build_inbound_rules_for_ip_version`. -/
def buildInboundRulesForIpVersion (service : Service) (proto : Proto) (version : Version) :
    Option (List Rule) := do
  let ipExprs ← ipMatchExprs groups service.allow version .source
  if ipExprs = [] then return []
  let ifaceExprs ← interfaceMatchExprs groups service.allow.interfaces service.allow.interfaceGroups
  return ifaceExprs.flatMap fun iface => ipExprs.map fun ip =>
    { conditions :=
        (iface.map Match.iifname).toList ++ (ip.map Match.address).toList ++
          portMatch proto service.ports ++ (if proto = .tcp then [.state [.new]] else []) ++
          (service.rateLimit.map Match.rate).toList
      statement := .accept }

/-- The accept rules of a service in `render_filter`. -/
def inboundServiceRules (service : Service) : Option (List Rule) :=
  if service.enabled && service.direction != .outbound && !service.ports.isEmpty then
    (service.protocols.mapM fun proto => do
      let v4 ← buildInboundRulesForIpVersion groups service proto .v4
      let v6 ← buildInboundRulesForIpVersion groups service proto .v6
      return v4 ++ v6).map List.flatten
  else some []

/-! ## Sensitive services -/

/-- `service_has_ip_constraints`. -/
def serviceHasIpConstraints (service : Service) : Option Bool :=
  if !service.allow.ipv4.isEmpty || !service.allow.ipv6.isEmpty then some true
  else do
    let v4 ← cidrRefs groups .v4 service.allow.ipv4Groups
    if v4 ≠ [] then return true
    let v6 ← cidrRefs groups .v6 service.allow.ipv6Groups
    return !v6.isEmpty

/-- The networks of one family which `sensitive_public_violation` collapses. -/
def resolvedNetworks (allow : Allow) (version : Version) : Option (List Network) := do
  let values ← (allow.groups version).mapM (cidrGroup groups version)
  return parseNetworks version (allow.direct version) ++ values.flatten

/-- `sensitive_public_violation`. -/
def sensitivePublicViolation (collapse : List Network → List Network) (service : Service) :
    Option Bool := do
  let v4 ← resolvedNetworks groups service.allow .v4
  let v6 ← resolvedNetworks groups service.allow .v6
  return (collapse v4).any (·.prefixLen == 0) || (collapse v6).any (·.prefixLen == 0)

/-- The settings of the sensitive check. -/
structure Safety where
  requireNonEmpty : Bool
  forbidPublicSensitive : Bool
  allowPublicSensitive : Bool

/-- The check of one service in `validate_services`. -/
def validateService (collapse : List Network → List Network) (safety : Safety)
    (service : Service) : Option Unit :=
  if service.enabled && service.sensitive && service.direction != .outbound then do
    if safety.requireNonEmpty then
      let constrained ← serviceHasIpConstraints groups service
      guard (constrained = true)
    if safety.forbidPublicSensitive && !safety.allowPublicSensitive then
      let violation ← sensitivePublicViolation groups collapse service
      guard (violation = false)
  else some ()

/-- `validate_services`. -/
def validateServices (collapse : List Network → List Network) (safety : Safety)
    (services : List Service) : Option Unit :=
  services.forM (validateService groups collapse safety)

/-! ## What the rules of a service match -/

variable {groups}

theorem mem_uniquePreserve {α : Type} [DecidableEq α] {items : List α} {item : α} :
    item ∈ uniquePreserve items ↔ item ∈ items :=
  mem_eraseDups

variable {version : Version} {net : Network}

theorem mem_parseNetworks {values : List (Option Network)} :
    net ∈ parseNetworks version values ↔ some net ∈ values ∧ net.version = version := by
  simp [parseNetworks, mem_uniquePreserve]

theorem mem_of_mapM {α β : Type} {f : α → Option β} {items : List α} {results : List β}
    (h : items.mapM f = some results) {result : β} (hmem : result ∈ results) :
    ∃ item ∈ items, f item = some result := by
  induction items generalizing results with
  | nil =>
    obtain rfl : results = [] := by simpa using h.symm
    cases hmem
  | cons item items ih =>
    simp only [mapM_cons, bind_eq_bind, bind_eq_some_iff] at h
    obtain ⟨first, hfirst, rest, hrest, hresults⟩ := h
    cases hresults
    rcases mem_cons.mp hmem with rfl | hmem
    · exact ⟨item, mem_cons_self .., hfirst⟩
    · obtain ⟨other, hother, hresult⟩ := ih hrest hmem
      exact ⟨other, mem_cons_of_mem _ hother, hresult⟩

theorem mapM_mem {α β : Type} {f : α → Option β} {items : List α} {results : List β}
    (h : items.mapM f = some results) {item : α} (hmem : item ∈ items) :
    ∃ result ∈ results, f item = some result := by
  induction items generalizing results with
  | nil => cases hmem
  | cons first items ih =>
    simp only [mapM_cons, bind_eq_bind, bind_eq_some_iff] at h
    obtain ⟨result, hresult, rest, hrest, hresults⟩ := h
    cases hresults
    rcases mem_cons.mp hmem with rfl | hmem
    · exact ⟨result, mem_cons_self .., hresult⟩
    · obtain ⟨other, hother, hsome⟩ := ih hrest hmem
      exact ⟨other, mem_cons_of_mem _ hother, hsome⟩

/-- The networks which a service allows in a family, by its groups and directly. -/
def Allow.has (allow : Allow) (groups : Groups) (version : Version) (net : Network) : Prop :=
  (∃ name ∈ allow.groups version, ∃ values, cidrGroup groups version name = some values ∧
    net ∈ values) ∨ net ∈ parseNetworks version (allow.direct version)

theorem mem_cidrRefs {names : List String} {refs : List AddressSet} {ref : AddressSet}
    (h : cidrRefs groups version names = some refs) (hmem : ref ∈ refs) :
    ∃ name ∈ names, ∃ values, cidrGroup groups version name = some values ∧
      ref = .group name values := by
  obtain ⟨all, hall, rfl⟩ := map_eq_some_iff.mp h
  obtain ⟨name, hname, hgroup⟩ := mem_of_mapM hall (mem_uniquePreserve.mp hmem)
  obtain ⟨values, hvalues, rfl⟩ := map_eq_some_iff.mp hgroup
  exact ⟨name, hname, values, hvalues, rfl⟩

/-- An address match of a service with constraints: its networks are allowed, and only a
direct list of multicast networks changes the role. -/
theorem mem_ipMatchExprs {allow : Allow} {role : Role} {exprs : List (Option AddressMatch)}
    {expr : Option AddressMatch} (h : ipMatchExprs groups allow version role = some exprs)
    (hconstrained : allowHasAnyIpConstraints allow = true) (hmem : expr ∈ exprs) :
    ∃ addresses, expr = some addresses ∧ addresses.version = version ∧
      (∀ net ∈ addresses.set.values, allow.has groups version net) ∧
      (addresses.role = role ∨
        ∃ direct, addresses.set = .direct direct ∧ networksAreMulticast direct = true ∧
          addresses.role = .destination) := by
  simp only [ipMatchExprs, bind_eq_bind, bind_eq_some_iff] at h
  obtain ⟨refs, hrefs, direct, hdirect, h⟩ := h
  obtain rfl : parseNetworks version (allow.direct version) = direct := by
    unfold directCidrsForVersion at hdirect
    split at hdirect
    · exact Option.some.inj hdirect
    · cases hdirect
  split at h
  · cases h
    cases hmem
  · cases h
    obtain ⟨addresses, haddresses, rfl⟩ := mem_map.mp hmem
    refine ⟨addresses, rfl, ?_⟩
    rcases mem_append.mp (mem_uniquePreserve.mp haddresses) with hgroup | hlist
    · obtain ⟨ref, href, rfl⟩ := mem_map.mp hgroup
      obtain ⟨name, hname, values, hvalues, rfl⟩ := mem_cidrRefs hrefs href
      exact ⟨rfl, fun net hnet => .inl ⟨name, hname, values, hvalues, hnet⟩, .inl rfl⟩
    · split at hlist
      · cases hlist
      · obtain rfl := mem_singleton.mp hlist
        refine ⟨rfl, fun net hnet => .inr hnet, ?_⟩
        by_cases hmulticast :
            networksAreMulticast (parseNetworks version (allow.direct version)) = true
        · exact .inr ⟨_, rfl, hmulticast, if_pos hmulticast⟩
        · exact .inl (if_neg hmulticast)

/-- A set for some patterns: their exact names, or one of their wildcards. -/
inductive OfPatterns (patterns : List Pattern) (names : InterfaceSet) :
    InterfaceSet → Prop
  | exact (h : exactNames patterns ≠ []) : OfPatterns patterns names names
  | wildcard (stem : String) (h : stem ∈ wildcardStems patterns) :
      OfPatterns patterns names (.wildcard stem)

/-- An interface match is for the direct interfaces or for those of a group. -/
theorem mem_interfaceMatchExprs {interfaces : List Pattern} {names : List String}
    {exprs : List (Option InterfaceSet)}
    (h : interfaceMatchExprs groups interfaces names = some exprs) {set : InterfaceSet}
    (hmem : some set ∈ exprs) :
    OfPatterns interfaces (.direct (exactNames interfaces)) set ∨
      ∃ name ∈ names, ∃ patterns, interfaceGroup groups name = some patterns ∧
        OfPatterns patterns (.group name (exactNames patterns)) set := by
  have hparts : ∀ (patterns : List Pattern) (names : InterfaceSet),
      set ∈ (if exactNames patterns = [] then [] else [names]) ++
        (wildcardStems patterns).map InterfaceSet.wildcard → OfPatterns patterns names set := by
    intro patterns names hset
    rcases mem_append.mp hset with hexact | hwildcard
    · split at hexact
      · cases hexact
      · rename_i hne
        obtain rfl := mem_singleton.mp hexact
        exact .exact hne
    · obtain ⟨stem, hstem, rfl⟩ := mem_map.mp hwildcard
      exact .wildcard stem hstem
  simp only [interfaceMatchExprs, expandInterfaceGroupRefs, bind_eq_bind,
    bind_eq_some_iff] at h
  obtain ⟨refs, ⟨expanded, hexpanded, hrefs⟩, h⟩ := h
  cases hrefs
  cases h
  have hset : set ∈ ((if exactNames interfaces = [] then []
      else [InterfaceSet.direct (exactNames interfaces)]) ++
      (wildcardStems interfaces).map InterfaceSet.wildcard) ++
        uniquePreserve expanded.flatten := by
    generalize ((if exactNames interfaces = [] then []
      else [InterfaceSet.direct (exactNames interfaces)]) ++
      (wildcardStems interfaces).map InterfaceSet.wildcard) ++
        uniquePreserve expanded.flatten = listed at hmem ⊢
    split at hmem
    · simp at hmem
    · obtain ⟨other, hother, heq⟩ := mem_map.mp hmem
      cases heq
      exact mem_uniquePreserve.mp hother
  rcases mem_append.mp hset with hdirect | hgroup
  · exact .inl (hparts interfaces _ hdirect)
  · right
    obtain ⟨sets, hsets, hin⟩ := mem_flatten.mp (mem_uniquePreserve.mp hgroup)
    obtain ⟨name, hname, hsome⟩ := mem_of_mapM hexpanded hsets
    simp only [bind_eq_some_iff] at hsome
    obtain ⟨patterns, hpatterns, hsome⟩ := hsome
    cases hsome
    exact ⟨name, hname, patterns, hpatterns, hparts patterns _ hin⟩

variable {service : Service}

/-- An accept rule of a service reads an address match of one family. -/
theorem mem_inboundServiceRules {rules : List Rule} {rule : Rule}
    (h : inboundServiceRules groups service = some rules) (hmem : rule ∈ rules) :
    ∃ version exprs ip, ipMatchExprs groups service.allow version .source = some exprs ∧
      ip ∈ exprs ∧ ∀ addresses, ip = some addresses → .address addresses ∈ rule.conditions := by
  unfold inboundServiceRules at h
  split at h
  · obtain ⟨all, hall, rfl⟩ := map_eq_some_iff.mp h
    obtain ⟨built, hbuilt, hrule⟩ := mem_flatten.mp hmem
    obtain ⟨proto, -, hproto⟩ := mem_of_mapM hall hbuilt
    simp only [bind_eq_bind, bind_eq_some_iff] at hproto
    obtain ⟨v4, hv4, v6, hv6, hsum⟩ := hproto
    cases hsum
    have hversion : ∃ version part, buildInboundRulesForIpVersion groups service proto version =
        some part ∧ rule ∈ part := by
      rcases mem_append.mp hrule with hpart | hpart
      · exact ⟨.v4, v4, hv4, hpart⟩
      · exact ⟨.v6, v6, hv6, hpart⟩
    obtain ⟨version, part, hpart, hrule⟩ := hversion
    simp only [buildInboundRulesForIpVersion, bind_eq_bind, bind_eq_some_iff] at hpart
    obtain ⟨exprs, hexprs, hpart⟩ := hpart
    split at hpart
    · cases hpart
      cases hrule
    · simp only [bind_eq_some_iff] at hpart
      obtain ⟨ifaces, -, hpart⟩ := hpart
      cases hpart
      obtain ⟨iface, -, hiface⟩ := mem_flatMap.mp hrule
      obtain ⟨ip, hip, rfl⟩ := mem_map.mp hiface
      refine ⟨version, exprs, ip, hexprs, hip, ?_⟩
      rintro addresses rfl
      simp
  · cases h
    cases hmem

/-! ## Sensitive services are restricted -/

theorem allowHasAny_of_constraints (h : serviceHasIpConstraints groups service = some true) :
    allowHasAnyIpConstraints service.allow = true := by
  have hrefs : ∀ version names, cidrRefs groups version names = some [] ∨
      names.isEmpty = false ∨ cidrRefs groups version names = none := by
    intro version names
    cases names with
    | nil => exact .inl rfl
    | cons name names => exact .inr (.inl rfl)
  unfold serviceHasIpConstraints at h
  unfold allowHasAnyIpConstraints
  split at h
  · rename_i hdirect
    rw [hdirect, Bool.true_or, Bool.true_or]
  · simp only [bind_eq_bind, bind_eq_some_iff] at h
    obtain ⟨v4, hv4, h⟩ := h
    split at h
    · rename_i hne
      rcases hrefs .v4 service.allow.ipv4Groups with hempty | hnames | hnone
      · rw [hempty] at hv4
        exact absurd (Option.some.inj hv4).symm hne
      · simp [hnames]
      · rw [hnone] at hv4
        cases hv4
    · simp only [bind_eq_some_iff] at h
      obtain ⟨v6, hv6, h⟩ := h
      have hne : v6.isEmpty = false := by simpa using Option.some.inj h
      rcases hrefs .v6 service.allow.ipv6Groups with hempty | hnames | hnone
      · rw [hempty] at hv6
        rw [← Option.some.inj hv6] at hne
        cases hne
      · simp [hnames]
      · rw [hnone] at hv6
        cases hv6

/-- The resolved networks of a family are those that the service allows. -/
theorem mem_resolvedNetworks {allow : Allow} {networks : List Network}
    (h : resolvedNetworks groups allow version = some networks) :
    allow.has groups version net ↔ net ∈ networks := by
  simp only [resolvedNetworks, bind_eq_bind, bind_eq_some_iff] at h
  obtain ⟨values, hvalues, h⟩ := h
  cases h
  constructor
  · rintro (⟨name, hname, group, hgroup, hnet⟩ | hnet)
    · obtain ⟨result, hresult, hsome⟩ := mapM_mem hvalues hname
      obtain rfl := Option.some.inj (hgroup.symm.trans hsome)
      exact mem_append_right _ (mem_flatten.mpr ⟨group, hresult, hnet⟩)
    · exact mem_append_left _ hnet
  · intro hnet
    rcases mem_append.mp hnet with hnet | hnet
    · exact .inr hnet
    · obtain ⟨group, hgroup, hnet⟩ := mem_flatten.mp hnet
      obtain ⟨name, hname, hsome⟩ := mem_of_mapM hvalues hgroup
      exact .inl ⟨name, hname, group, hsome, hnet⟩

theorem version_of_has {allow : Allow}
    (h : allow.has groups version net) : net.version = version := by
  rcases h with ⟨name, -, values, hvalues, hnet⟩ | hnet
  · unfold cidrGroup at hvalues
    split at hvalues
    · cases hvalues
    · split at hvalues
      · cases hvalues
      · cases hvalues
        exact (mem_parseNetworks.mp hnet).2
  · exact (mem_parseNetworks.mp hnet).2

/-- A checked service leaves an address of each family out of its networks. -/
theorem exists_address_outside {collapse : List Network → List Network}
    (h : sensitivePublicViolation groups collapse service = some false)
    (hcollapse : ∀ version networks, resolvedNetworks groups service.allow version = some networks →
      Collapsed networks (collapse networks)) (version : Version) :
    ∃ address < 2 ^ version.bits, ∀ net, service.allow.has groups version net →
      ¬net.contains address := by
  simp only [sensitivePublicViolation, bind_eq_bind, bind_eq_some_iff] at h
  obtain ⟨v4, hv4, v6, hv6, h⟩ := h
  have hneither := Option.some.inj h
  rw [Bool.or_eq_false_iff] at hneither
  have hnone : ∃ networks, resolvedNetworks groups service.allow version = some networks ∧
      (collapse networks).any (·.prefixLen == 0) = false := by
    cases version with
    | v4 => exact ⟨v4, hv4, hneither.1⟩
    | v6 => exact ⟨v6, hv6, hneither.2⟩
  obtain ⟨networks, hnetworks, hnoRoot⟩ := hnone
  by_contra hall
  push Not at hall
  obtain ⟨net, hnet, hroot⟩ := (hcollapse version networks hnetworks).exists_root
    (fun net hnet => version_of_has ((mem_resolvedNetworks hnetworks).mpr hnet))
    (fun address hlt => by
      obtain ⟨net, hhas, hcontains⟩ := hall address hlt
      exact ⟨net, (mem_resolvedNetworks hnetworks).mp hhas, hcontains⟩)
  have hfalse := any_eq_false.mp hnoRoot net hnet
  rw [hroot] at hfalse
  exact hfalse rfl

theorem validateService_of_mem {collapse : List Network → List Network} {safety : Safety}
    {services : List Service} (h : validateServices groups collapse safety services = some ())
    (hmem : service ∈ services) :
    validateService groups collapse safety service = some () := by
  unfold validateServices at h
  induction services with
  | nil => cases hmem
  | cons first services ih =>
    simp only [List.forM_eq_forM, List.forM_cons, bind_eq_bind,
      bind_eq_some_iff] at h
    obtain ⟨_, hfirst, hrest⟩ := h
    rcases mem_cons.mp hmem with rfl | hmem
    · exact hfirst
    · exact ih hrest hmem

/-- A sensitive service for one direct IPv4 network. -/
def sshFor (net : Network) : Service where
  name := "ssh"
  enabled := true
  enforceAllowlist := false
  sensitive := true
  direction := .inbound
  protocols := [.tcp]
  ports := [⟨22, 22⟩]
  sourcePorts := []
  allow :=
    { ipv4 := [some net]
      ipv6 := []
      ipv4Groups := []
      ipv6Groups := []
      interfaces := []
      interfaceGroups := [] }
  allowTo := none
  rateLimit := none
  log := false

/-- `192.168.0.0/16`. -/
def lan : Network := ⟨.v4, 16, 192 * 256 + 168, by decide, by decide⟩

/-- `224.0.0.251/32`. -/
def mdns : Network := ⟨.v4, 32, 224 * 2 ^ 24 + 251, whole_v4, by decide⟩

def noGroups : Groups := ⟨[], [], [], List.nodup_nil, List.nodup_nil, List.nodup_nil⟩

theorem collapsed_sshFor (hfamily : net.version = .v4) :
    ∀ version networks, resolvedNetworks noGroups (sshFor net).allow version = some networks →
      Collapsed networks (id networks) := by
  intro version networks h
  have hsingle : [net].eraseDups = [net] := rfl
  cases version with
  | v4 =>
    obtain rfl : networks = [net] := by
      simpa [resolvedNetworks, sshFor, Allow.groups, Allow.direct, parseNetworks, uniquePreserve,
        hfamily, hsingle] using h.symm
    exact Collapsed.singleton net
  | v6 =>
    obtain rfl : networks = [] := by
      simpa [resolvedNetworks, sshFor, Allow.groups, Allow.direct, parseNetworks, uniquePreserve]
        using h.symm
    exact Collapsed.nil

end Preseed.Nftables
