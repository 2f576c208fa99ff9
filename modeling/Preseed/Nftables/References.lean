import Preseed.Nftables.Chains

/-!
# References to constants

Every constant of a rendered rule is that of a group of the policy which has values
of the kind that the rule matches.
-/

namespace Preseed.Nftables

open Preseed.Networks Option Rule Match

/-! ## Known groups -/

variable (groups : Groups)

/-- A set is given directly, or by the constant of a group with exact names. -/
def InterfaceSet.Known : InterfaceSet → Prop
  | group name exact =>
      exact ≠ [] ∧ ∃ patterns, interfaceGroup groups name = some patterns ∧
        exactNames patterns = exact
  | direct _ | wildcard _ => True

/-- A set is given directly, or by the constant of a group of the family. -/
def AddressMatch.Known (addresses : AddressMatch) : Prop :=
  match addresses.set with
  | .group name values => cidrGroup groups addresses.version name = some values
  | .direct _ => True

def Match.Known : Match → Prop
  | iifname set | oifname set => set.Known groups
  | address addresses => addresses.Known groups
  | _ => True

def Rule.Known (rule : Rule) : Prop := ∀ condition ∈ rule.conditions, condition.Known groups

def AllKnown (rules : List Rule) : Prop := ∀ rule ∈ rules, rule.Known groups

variable {groups}

@[simp] theorem allKnown_nil : AllKnown groups [] := fun _ h => nomatch h

@[simp] theorem allKnown_cons {rule : Rule} {rules : List Rule} :
    AllKnown groups (rule :: rules) ↔ rule.Known groups ∧ AllKnown groups rules :=
  List.forall_mem_cons

@[simp] theorem allKnown_append {left right : List Rule} :
    AllKnown groups (left ++ right) ↔ AllKnown groups left ∧ AllKnown groups right :=
  List.forall_mem_append

theorem AllKnown.flatMap {α : Type} {items : List α} {f : α → List Rule}
    (h : ∀ item ∈ items, AllKnown groups (f item)) : AllKnown groups (items.flatMap f) := by
  intro rule hrule
  obtain ⟨item, hitem, hrule⟩ := List.mem_flatMap.mp hrule
  exact h item hitem rule hrule

theorem AllKnown.flatten {parts : List (List Rule)} (h : ∀ part ∈ parts, AllKnown groups part) :
    AllKnown groups parts.flatten := by
  intro rule hrule
  obtain ⟨part, hpart, hrule⟩ := List.mem_flatten.mp hrule
  exact h part hpart rule hrule

variable {rules : List Rule}

theorem AllKnown.whenRule {condition : Bool} (h : AllKnown groups rules) :
    AllKnown groups (whenRule condition rules) := by
  unfold Nftables.whenRule
  split
  · exact h
  · exact allKnown_nil

/-- The rules of the items are known if those of each item are. -/
theorem AllKnown.mapM {α : Type} {items : List α} {f : α → Option (List Rule)}
    {parts : List (List Rule)} (hparts : items.mapM f = some parts)
    (h : ∀ item rules, f item = some rules → AllKnown groups rules) :
    AllKnown groups parts.flatten := by
  refine .flatten fun part hpart => ?_
  obtain ⟨item, -, hitem⟩ := mem_of_mapM hparts hpart
  exact h item part hitem

@[simp] theorem Rule.known_nil {statement : Statement} : Rule.Known groups ⟨[], statement⟩ :=
  fun _ h => nomatch h

@[simp] theorem Rule.known_cons {condition : Match} {conditions : List Match}
    {statement : Statement} : Rule.Known groups ⟨condition :: conditions, statement⟩ ↔
      condition.Known groups ∧ Rule.Known groups ⟨conditions, statement⟩ :=
  List.forall_mem_cons

@[simp] theorem Rule.known_append {left right : List Match} {statement : Statement} :
    Rule.Known groups ⟨left ++ right, statement⟩ ↔
      Rule.Known groups ⟨left, statement⟩ ∧ Rule.Known groups ⟨right, statement⟩ :=
  List.forall_mem_append

/-! ## Match expressions -/

variable {role : Role} {version : Version} {names : List String}

variable {refs : List AddressSet}

theorem known_cidrRefs (h : cidrRefs groups version names = some refs) {set : AddressSet}
    (hmem : set ∈ refs) : AddressMatch.Known groups ⟨version, role, set⟩ := by
  obtain ⟨name, -, values, hvalues, rfl⟩ := mem_cidrRefs h hmem
  exact hvalues

theorem known_withDirect {listed : List AddressSet} (h : cidrRefs groups version names = some refs)
    (hsub : ∀ set ∈ listed, set ∈ refs) {direct : List Network} {set : AddressSet}
    (hmem : set ∈ withDirect listed direct) :
    AddressMatch.Known groups ⟨version, role, set⟩ := by
  rcases List.mem_append.mp hmem with href | hdirect
  · exact known_cidrRefs h (hsub set href)
  · split at hdirect
    · cases hdirect
    · obtain rfl := List.mem_singleton.mp hdirect
      trivial

theorem known_ipMatchExprs {allow : Allow} {exprs : List (Option AddressMatch)}
    (h : ipMatchExprs groups allow version role = some exprs) {addresses : AddressMatch}
    (hmem : some addresses ∈ exprs) : addresses.Known groups := by
  simp only [ipMatchExprs, bind_eq_bind, bind_eq_some_iff] at h
  obtain ⟨refs, hrefs, direct, -, h⟩ := h
  split at h
  · cases h
    split at hmem
    · cases hmem
    · cases List.mem_singleton.mp hmem
  · cases h
    obtain ⟨other, hother, heq⟩ := List.mem_map.mp hmem
    cases heq
    rcases List.mem_append.mp (mem_uniquePreserve.mp hother) with hgroup | hlist
    · obtain ⟨ref, href, rfl⟩ := List.mem_map.mp hgroup
      exact known_cidrRefs hrefs href
    · split at hlist
      · cases hlist
      · obtain rfl := List.mem_singleton.mp hlist
        trivial

variable {interfaces : List Pattern}

theorem known_interfaceMatchExprs {exprs : List (Option InterfaceSet)}
    (h : interfaceMatchExprs groups interfaces names = some exprs) {set : InterfaceSet}
    (hmem : some set ∈ exprs) : set.Known groups := by
  rcases mem_interfaceMatchExprs h hmem with hset | ⟨name, -, patterns, hpatterns, hset⟩
  · cases hset with
    | exact _ => trivial
    | wildcard _ _ => trivial
  · cases hset with
    | exact hne => exact ⟨hne, patterns, hpatterns, rfl⟩
    | wildcard _ _ => trivial

/-! ## Conditions -/

variable {statement : Statement}

theorem known_optional {α : Type} {expr : Option α} {f : α → Match}
    (h : ∀ value, expr = some value → (f value).Known groups) :
    Rule.Known groups ⟨(expr.map f).toList, statement⟩ := by
  cases expr with
  | none => exact known_nil
  | some value => exact known_cons.mpr ⟨h value rfl, known_nil⟩

@[simp] theorem known_portMatch {proto : Proto} {ports : List Ports} {statement : Statement} :
    Rule.Known groups ⟨portMatch proto ports, statement⟩ := by
  unfold portMatch
  split
  · exact known_nil
  · exact known_cons.mpr ⟨trivial, known_nil⟩

@[simp] theorem known_sourcePortMatch {proto : Proto} {ports : List Ports}
    {statement : Statement} : Rule.Known groups ⟨sourcePortMatch proto ports, statement⟩ := by
  unfold sourcePortMatch
  split
  · exact known_nil
  · exact known_cons.mpr ⟨trivial, known_nil⟩

@[simp] theorem known_rateMatch {rate : Option String} {statement : Statement} :
    Rule.Known groups ⟨rateMatch rate, statement⟩ :=
  known_optional fun _ _ => trivial

/-- The rules for the pairs of an interface and an address expression. -/
theorem known_pairs {ifaces : List (Option InterfaceSet)}
    (hifaces : interfaceMatchExprs groups interfaces names = some ifaces)
    {ips : List (Option AddressMatch)}
    (hips : ∀ ip ∈ ips, ∀ addresses, ip = some addresses → addresses.Known groups)
    {keyword : InterfaceSet → Match}
    (hkeyword : ∀ set, (keyword set).Known groups = set.Known groups) {tail : List Match}
    (htail : Rule.Known groups ⟨tail, statement⟩) {iface : Option InterfaceSet}
    (hiface : iface ∈ ifaces) {ip : Option AddressMatch} (hip : ip ∈ ips) : Rule.Known groups
      ⟨(iface.map keyword).toList ++ (ip.map address).toList ++ tail, statement⟩ := by
  refine known_append.mpr ⟨known_append.mpr ⟨known_optional ?_, known_optional ?_⟩, htail⟩
  · rintro set rfl
    rw [hkeyword]
    exact known_interfaceMatchExprs hifaces hiface
  · rintro addresses rfl
    exact hips _ hip addresses rfl

theorem known_groupRule {name : String} {before after : List Match}
    (hbefore : Rule.Known groups ⟨before, statement⟩)
    (hafter : Rule.Known groups ⟨after, statement⟩) :
    AllKnown groups (groupRule groups version role name before after statement) := by
  unfold groupRule
  split
  · exact allKnown_nil
  · rename_i values hvalues
    refine allKnown_cons.mpr ⟨known_append.mpr ⟨known_append.mpr ⟨hbefore, ?_⟩, hafter⟩,
      allKnown_nil⟩
    exact known_cons.mpr ⟨hvalues, known_nil⟩

/-! ## The rules of each part -/

variable {service : Service}

theorem known_inboundServiceRules
    (h : inboundServiceRules groups service = some rules) : AllKnown groups rules := by
  unfold inboundServiceRules at h
  split at h
  · obtain ⟨parts, hparts, rfl⟩ := map_eq_some_iff.mp h
    refine .mapM hparts fun proto built hbuilt => ?_
    have hversion : ∀ version rules, buildInboundRulesForIpVersion groups service proto version =
        some rules → AllKnown groups rules := by
      intro version rules hrules
      simp only [buildInboundRulesForIpVersion, bind_eq_bind,
        bind_eq_some_iff] at hrules
      obtain ⟨ips, hips, hrules⟩ := hrules
      split at hrules
      · cases hrules
        exact allKnown_nil
      · simp only [bind_eq_some_iff] at hrules
        obtain ⟨ifaces, hifaces, hrules⟩ := hrules
        cases hrules
        refine .flatMap fun iface hiface rule hrule => ?_
        obtain ⟨ip, hip, rfl⟩ := List.mem_map.mp hrule
        have hpair : Rule.Known groups ⟨(iface.map iifname).toList ++
            (ip.map address).toList ++ [], .accept⟩ :=
          known_pairs hifaces (fun ip hip addresses haddresses =>
            known_ipMatchExprs hips (haddresses ▸ hip)) (fun _ => rfl) known_nil hiface hip
        rw [List.append_nil] at hpair
        refine known_append.mpr ⟨known_append.mpr ⟨known_append.mpr
          ⟨hpair, known_portMatch⟩, ?_⟩, known_optional fun _ _ => trivial⟩
        split
        · exact known_cons.mpr ⟨trivial, known_nil⟩
        · exact known_nil
    simp only [bind_eq_bind, bind_eq_some_iff] at hbuilt
    obtain ⟨v4, hv4, v6, hv6, hbuilt⟩ := hbuilt
    cases hbuilt
    exact allKnown_append.mpr ⟨hversion .v4 v4 hv4, hversion .v6 v6 hv6⟩
  · cases h
    exact allKnown_nil

theorem known_outboundRules {spec : OutboundSpec}
    (h : outboundRules groups spec = some rules) : AllKnown groups rules := by
  unfold outboundRules at h
  split at h
  · obtain ⟨parts, hparts, rfl⟩ := map_eq_some_iff.mp h
    refine .mapM hparts fun proto built hbuilt => ?_
    have hversion : ∀ version rules, buildOutboundRulesForIpVersion groups spec proto version =
        some rules → AllKnown groups rules := by
      intro version rules hrules
      simp only [buildOutboundRulesForIpVersion, bind_eq_bind,
        bind_eq_some_iff] at hrules
      obtain ⟨ips, hips, hrules⟩ := hrules
      split at hrules
      · cases hrules
        exact allKnown_nil
      · simp only [bind_eq_some_iff] at hrules
        obtain ⟨ifaces, hifaces, hrules⟩ := hrules
        cases hrules
        refine .flatMap fun iface hiface rule hrule => ?_
        obtain ⟨ip, hip, rfl⟩ := List.mem_map.mp hrule
        have hpair : Rule.Known groups ⟨(iface.map oifname).toList ++
            (ip.map address).toList ++ portMatch proto spec.ports, .accept⟩ :=
          known_pairs hifaces (fun ip hip addresses haddresses =>
            known_ipMatchExprs hips (haddresses ▸ hip)) (fun _ => rfl) known_portMatch hiface hip
        exact known_append.mpr ⟨hpair, known_sourcePortMatch⟩
    simp only [bind_eq_bind, bind_eq_some_iff] at hbuilt
    obtain ⟨v4, hv4, v6, hv6, hbuilt⟩ := hbuilt
    cases hbuilt
    exact allKnown_append.mpr ⟨hversion .v4 v4 hv4, hversion .v6 v6 hv6⟩
  · cases h
    exact allKnown_nil

theorem known_guardMatches {permitted : List (List Match)}
    (h : guardMatches groups service = some permitted) {conditions : List Match}
    (hmem : conditions ∈ permitted) : Rule.Known groups ⟨conditions, .return⟩ := by
  simp only [guardMatches, bind_eq_bind, bind_eq_some_iff] at h
  obtain ⟨_, -, ifaces, hifaces, _, -, v4, hv4, v6, hv6, h⟩ := h
  cases h
  obtain ⟨ip, hip, hconditions⟩ := List.mem_flatMap.mp hmem
  obtain ⟨iface, hiface, rfl⟩ := List.mem_map.mp hconditions
  have hips : ∀ ip ∈ v4 ++ v6, ∀ addresses, ip = some addresses → addresses.Known groups := by
    rintro _ hip addresses rfl
    rcases List.mem_append.mp hip with hip | hip
    · exact known_ipMatchExprs hv4 hip
    · exact known_ipMatchExprs hv6 hip
  have hkeyword : ∀ set, ((if service.direction == .inbound then iifname else .oifname)
      set).Known groups = set.Known groups := by
    intro set
    split <;> rfl
  have hpair : Rule.Known groups
      ⟨(iface.map (if service.direction == .inbound then iifname else .oifname)).toList ++
        (ip.map address).toList ++ [], .return⟩ :=
    known_pairs hifaces hips hkeyword known_nil hiface hip
  rwa [List.append_nil] at hpair

variable {policy : Policy}

theorem known_guard {built : Guard} (h : GuardFor policy service built) :
    AllKnown policy.groups built.rules ∧ AllKnown policy.groups built.jumps := by
  constructor
  · obtain ⟨permitted, hpermitted, hrules⟩ := h.rules
    rw [hrules]
    refine allKnown_append.mpr ⟨fun rule hrule => ?_, by simp⟩
    obtain ⟨conditions, hconditions, rfl⟩ := List.mem_map.mp hrule
    exact known_guardMatches hpermitted hconditions
  · rw [h.jumps]
    intro rule hrule
    obtain ⟨proto, -, rfl⟩ := List.mem_map.mp hrule
    exact known_portMatch

theorem known_loopbackSet : (loopbackSet groups).Known groups := by
  unfold loopbackSet
  split
  · trivial
  · rename_i patterns hpatterns
    split
    · trivial
    · rename_i hne
      exact ⟨hne, patterns, hpatterns, rfl⟩

/-- The rules for the sources of some categories. -/
theorem known_dropRules {filter : SourceFilter} {ifaces : List (Option InterfaceSet)}
    (hifaces : interfaceMatchExprs groups filter.interfaces filter.interfaceGroups = some ifaces)
    {categories : List (List AddressMatch)}
    (hcategories : filter.categories.mapM (dropSets groups) = some categories)
    {iface : Option InterfaceSet} (hiface : iface ∈ ifaces) {addresses : List AddressMatch}
    (haddresses : addresses ∈ categories) : AllKnown groups (dropRules iface addresses) := by
  obtain ⟨category, -, hcategory⟩ := mem_of_mapM hcategories haddresses
  simp only [dropSets, bind_eq_bind, bind_eq_some_iff] at hcategory
  obtain ⟨refs, hrefs, direct, -, hcategory⟩ := hcategory
  cases hcategory
  intro rule hrule
  obtain ⟨match', hmatch, rfl⟩ := List.mem_map.mp hrule
  obtain ⟨set, hset, rfl⟩ := List.mem_map.mp hmatch
  refine known_append.mpr ⟨known_optional ?_, known_cons.mpr ⟨?_, known_nil⟩⟩
  · rintro set rfl
    exact known_interfaceMatchExprs hifaces hiface
  · exact known_withDirect hrefs (fun _ h => h) hset

theorem known_buildSourceFilterDropRules {filter : Option SourceFilter}
    (h : buildSourceFilterDropRules groups filter = some rules) : AllKnown groups rules := by
  cases filter with
  | none =>
    cases h
    exact allKnown_nil
  | some filter =>
    simp only [buildSourceFilterDropRules, bind_eq_bind, bind_eq_some_iff] at h
    obtain ⟨ifaces, hifaces, categories, hcategories, h⟩ := h
    cases h
    exact .flatMap fun _ haddresses => .flatMap fun _ hiface =>
      known_dropRules hifaces hcategories hiface haddresses

theorem known_antiSpoofingRules {filter : Option SourceFilter}
    (h : antiSpoofingRules groups filter = some rules) : AllKnown groups rules := by
  cases filter with
  | none =>
    cases h
    exact allKnown_nil
  | some filter =>
    simp only [antiSpoofingRules, bind_eq_bind, bind_eq_some_iff] at h
    obtain ⟨ifaces, hifaces, categories, hcategories, h⟩ := h
    cases h
    exact .flatMap fun _ hiface => .flatMap fun _ haddresses =>
      known_dropRules hifaces hcategories (List.mem_filter.mp hiface).1 haddresses

theorem known_dropLogRules {chain : LogChain} :
    AllKnown groups (dropLogRules policy chain) := by
  unfold dropLogRules
  split
  · exact allKnown_nil
  · exact .whenRule (by simp)

theorem known_baseRules (h : baseRules policy = some rules) : AllKnown policy.groups rules := by
  simp only [baseRules, bind_eq_bind, bind_eq_some_iff] at h
  obtain ⟨sources, hsources, spoofed, hspoofed, h⟩ := h
  cases h
  simp only [allKnown_append]
  refine ⟨⟨⟨⟨⟨⟨⟨⟨⟨⟨⟨?_, ?_⟩, ?_⟩, ?_⟩, ?_⟩, ?_⟩, ?_⟩, ?_⟩, ?_⟩, ?_⟩, ?_⟩, ?_⟩
  · exact .whenRule (by simp [Match.Known])
  · exact .whenRule (by simp [Match.Known, known_loopbackSet])
  · exact .whenRule (allKnown_append.mpr
      ⟨known_groupRule (by simp [Match.Known]) (by simp),
        known_groupRule (by simp [Match.Known]) (by simp)⟩)
  · exact .whenRule (by simp [Match.Known])
  · exact known_buildSourceFilterDropRules hsources
  · exact .whenRule (allKnown_append.mpr
      ⟨known_groupRule (by simp) (by simp), known_groupRule (by simp) (by simp)⟩)
  · exact .whenRule (by simp [Match.Known])
  · exact known_antiSpoofingRules hspoofed
  · split <;> simp [Match.Known]
  · split <;> simp [Match.Known]
  · split
    · exact allKnown_nil
    · exact .whenRule (known_groupRule (by simp) (by simp))
  · simp

theorem known_reservedRules : AllKnown groups (reservedRules policy) := by
  unfold reservedRules
  refine allKnown_append.mpr ⟨allKnown_append.mpr ⟨?_, .whenRule ?_⟩, ?_⟩
  · simp [Match.Known, InterfaceSet.Known, AddressMatch.Known, addressRule]
  · simp [Match.Known, InterfaceSet.Known]
  · split
    · exact allKnown_nil
    · simp [Match.Known, InterfaceSet.Known, AddressMatch.Known, addressRule]

/-- The rules against noise at the end of a chain. -/
theorem known_noiseRules : AllKnown groups
    [⟨[.packetType [.broadcast, .multicast]], .drop⟩,
      ⟨[addressRule .v4 .destination multicast4], .drop⟩,
      ⟨[addressRule .v6 .destination multicast6], .drop⟩] := by
  simp [Match.Known, AddressMatch.Known, addressRule]

/-! ## Chains -/

theorem known_renderFilter {filter : Filter}
    (h : renderFilter policy = some filter) : AllKnown policy.groups filter.input ∧
      ∀ built ∈ filter.guards, AllKnown policy.groups built.rules ∧
        AllKnown policy.groups built.jumps := by
  have hguards : ∀ built ∈ filter.guards, AllKnown policy.groups built.rules ∧
      AllKnown policy.groups built.jumps := by
    intro built hbuilt
    obtain ⟨service, hservice⟩ := exists_guardFor h hbuilt
    exact known_guard hservice
  refine ⟨?_, hguards⟩
  simp only [renderFilter, bind_eq_bind, bind_eq_some_iff] at h
  obtain ⟨guards, -, base, hbase, services, hservices, h⟩ := h
  cases h
  simp only [allKnown_append]
  refine ⟨⟨⟨.whenRule (by simp [Match.Known]), known_reservedRules⟩, ?_⟩,
    ⟨known_baseRules hbase, ?_⟩, ?_⟩
  · exact .flatMap fun built hbuilt => (hguards built (List.mem_filter.mp hbuilt).1).2
  · exact .mapM hservices fun _ _ => known_inboundServiceRules
  · unfold finalRules
    exact allKnown_append.mpr ⟨known_noiseRules, known_dropLogRules⟩

theorem known_builtinEgressRules :
    AllKnown policy.groups (builtinEgressRules policy) := by
  have hany : ∀ proto ports,
      AllKnown policy.groups (anyDestinationRules policy.groups [.dport [proto] ports]) :=
    fun proto ports => allKnown_append.mpr ⟨known_groupRule (by simp) (by simp [Match.Known]),
      known_groupRule (by simp) (by simp [Match.Known])⟩
  refine .whenRule (allKnown_append.mpr ⟨allKnown_append.mpr ⟨?_, ?_⟩, ?_⟩)
  · exact .whenRule (allKnown_append.mpr ⟨hany _ _, hany _ _⟩)
  · exact .whenRule (hany _ _)
  · exact .whenRule (hany _ _)

theorem known_renderOutput {guards : List Guard} (h : renderOutput policy guards = some rules)
    (hguards : ∀ built ∈ guards, AllKnown policy.groups built.jumps) :
    AllKnown policy.groups rules := by
  simp only [renderOutput, bind_eq_bind, bind_eq_some_iff] at h
  obtain ⟨services, hservices, egress, hegress, h⟩ := h
  cases h
  simp only [allKnown_append]
  refine ⟨⟨⟨⟨⟨⟨⟨⟨⟨⟨⟨⟨⟨?_, ?_⟩, ?_⟩, ?_⟩, ?_⟩, ?_⟩, ?_⟩, ?_⟩, ?_⟩, ?_⟩, ?_⟩, ?_⟩, ?_⟩, ?_⟩
  · exact .whenRule (by simp [Match.Known])
  · exact .flatMap fun built hbuilt => hguards built (List.mem_filter.mp hbuilt).1
  · exact .whenRule (by simp [Match.Known])
  · exact .whenRule (by simp [Match.Known, known_loopbackSet])
  · exact .whenRule (by simp [Match.Known])
  · exact .whenRule (by simp [Match.Known])
  · exact .whenRule (by simp [Match.Known])
  · split
    · exact allKnown_nil
    · exact .whenRule (known_groupRule (by simp) (by simp))
  · simp
  · split
    · exact allKnown_nil
    · exact .whenRule (by simp)
  · exact .mapM hservices fun _ _ => known_outboundRules
  · exact .mapM hegress fun _ _ => known_outboundRules
  · exact known_builtinEgressRules
  · exact .whenRule (allKnown_append.mpr ⟨known_noiseRules, known_dropLogRules⟩)

theorem known_sideMatches (h : cidrRefs groups .v4 names = some refs) {direct : List Network} :
    Rule.Known groups ⟨sideMatches role refs direct, statement⟩ := by
  intro condition hcondition
  obtain ⟨set, hset, rfl⟩ := List.mem_map.mp hcondition
  exact known_withDirect h (fun set hset => List.mem_of_mem_take hset) hset

theorem known_forwardRules {rule : ForwardRule}
    (h : forwardRules groups rule = some rules) : AllKnown groups rules := by
  unfold forwardRules at h
  split at h
  · cases h
    exact allKnown_nil
  · simp only [bind_eq_bind, bind_eq_some_iff] at h
    obtain ⟨froms, hfroms, tos, htos, sources, hsources, destinations, hdestinations, _, -,
      directSources, -, directDestinations, -, h⟩ := h
    cases h
    refine .flatMap fun fi hfi built hbuilt => ?_
    obtain ⟨ti, hti, rfl⟩ := List.mem_map.mp hbuilt
    refine known_append.mpr ⟨known_append.mpr ⟨known_append.mpr ⟨?_, ?_⟩,
      known_sideMatches hsources⟩, known_sideMatches hdestinations⟩
    · refine known_optional ?_
      rintro set rfl
      exact known_interfaceMatchExprs hfroms hfi
    · refine known_optional ?_
      rintro set rfl
      exact known_interfaceMatchExprs htos hti

theorem known_containerRules {active : Bool} {wan : List (Option InterfaceSet)}
    (hwan : interfaceMatchExprs groups interfaces names = some wan) {container : Container}
    (h : containerRules groups active wan container = some rules) :
    AllKnown groups rules := by
  unfold containerRules at h
  split at h
  · simp only [bind_eq_bind, bind_eq_some_iff] at h
    obtain ⟨exprs, hexprs, h⟩ := h
    cases h
    refine .flatMap fun set hset built hbuilt => ?_
    obtain ⟨uplink, huplink, rfl⟩ := List.mem_map.mp hbuilt
    obtain ⟨_, hset, rfl⟩ := List.mem_filterMap.mp hset
    obtain ⟨_, huplink, rfl⟩ := List.mem_filterMap.mp huplink
    exact known_cons.mpr ⟨known_interfaceMatchExprs hexprs hset,
      known_cons.mpr ⟨known_interfaceMatchExprs hwan huplink, known_nil⟩⟩
  · cases h
    exact allKnown_nil

theorem known_netkitForwardRules {netkit : Netkit} {peer : Network} :
    AllKnown groups (netkitForwardRules netkit peer) := by
  simp [netkitForwardRules, Match.Known, InterfaceSet.Known, AddressMatch.Known, addressRule]

theorem known_renderForward
    (h : renderForward policy = some rules) : AllKnown policy.groups rules := by
  simp only [renderForward, bind_eq_bind, bind_eq_some_iff] at h
  obtain ⟨forwards, hforwards, wan, hwan, containers, hcontainers, h⟩ := h
  cases h
  simp only [allKnown_append]
  refine ⟨⟨⟨⟨⟨⟨⟨⟨?_, ?_⟩, ?_⟩, ?_⟩, ?_⟩, ?_⟩, ?_⟩, ?_⟩, known_dropLogRules⟩
  · exact .whenRule (by simp [Match.Known])
  · simp [Match.Known, InterfaceSet.Known]
  · split
    · exact allKnown_nil
    · exact allKnown_append.mpr ⟨known_netkitForwardRules, known_netkitForwardRules⟩
  · exact .whenRule (by simp [Match.Known])
  · simp
  · exact .whenRule (by simp [Match.Known])
  · unfold forwardingRules at hforwards
    split at hforwards
    · obtain ⟨parts, hparts, rfl⟩ := map_eq_some_iff.mp hforwards
      exact .mapM hparts fun _ _ => known_forwardRules
    · cases hforwards
      exact allKnown_nil
  · exact .mapM hcontainers fun _ _ => known_containerRules hwan

/-- A rule of the address translation table with constants of known groups. -/
def NatRule.Known (groups : Groups) (rule : NatRule) : Prop :=
  ∀ condition ∈ rule.conditions, condition.Known groups

theorem known_renderNat {table : NatTable} (h : renderNat policy = some table) :
    ∀ rule ∈ table.postrouting ++ table.prerouting, rule.Known policy.groups := by
  unfold renderNat at h
  split at h
  · simp only [bind_eq_bind, bind_eq_some_iff] at h
    obtain ⟨postrouting, hpostrouting, h⟩ := h
    cases h
    intro rule hrule
    rcases List.mem_append.mp hrule with hrule | hrule
    · unfold masqueradeRules at hpostrouting
      split at hpostrouting
      · cases hpostrouting
        cases hrule
      · simp only [bind_eq_bind, bind_eq_some_iff] at hpostrouting
        obtain ⟨outs, houts, refs, hrefs, direct, -, hpostrouting⟩ := hpostrouting
        cases hpostrouting
        obtain ⟨out, hout, hrule⟩ := List.mem_flatMap.mp hrule
        obtain ⟨set, hset, rfl⟩ := List.mem_map.mp hrule
        refine List.forall_mem_append.mpr ⟨?_, List.forall_mem_cons.mpr ⟨?_, fun _ h => nomatch h⟩⟩
        · cases out with
          | none => exact fun _ h => nomatch h
          | some uplink =>
            exact List.forall_mem_cons.mpr
              ⟨known_interfaceMatchExprs houts hout, fun _ h => nomatch h⟩
        · exact known_withDirect hrefs (fun _ h => h) hset
    · obtain ⟨dnat, -, rfl⟩ := List.mem_map.mp hrule
      exact List.forall_mem_cons.mpr ⟨trivial, fun _ h => nomatch h⟩
  · cases h
    exact fun _ h => nomatch h

end Preseed.Nftables
