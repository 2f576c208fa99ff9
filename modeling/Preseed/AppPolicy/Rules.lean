import Preseed.AppPolicy.Configuration
import Preseed.Ipaddress.Networks

/-!
# What an accepted policy has passed

One specification for each function of the parser.
-/

namespace Preseed.AppPolicy

open Preseed.Ipaddress List

/-- The accepted settings of the network, with its pool and the address of the name server. -/
structure Settings.Accepted (s : Settings) (pool : Network) (dns : Address) : Prop where
  cidr : strictIpv4Network s.ipv4Cidr = some pool
  dnsAddress : ipv4Address s.dnsAddress = some dns
  prefixlen : 16 ≤ pool.prefixlen ∧ pool.prefixlen ≤ 30
  isPrivate : ∃ item ∈ privateIpv4Networks, subnetOf pool item = true
  maxLeases : 1 ≤ s.maxLeases ∧ s.maxLeases * 4 ≤ numAddresses pool
  outside : contains pool (ipv4 dns) = false
  hostPrefix : isInterface s.hostInterfacePrefix = true
  namespaceInterface : isInterface s.namespaceInterface = true
  hostSuffix : isSuffix s.hostInterfaceSuffix = true
  peerSuffix : isSuffix s.peerInterfaceSuffix = true
  suffixes : s.hostInterfaceSuffix ≠ s.peerInterfaceSuffix
  length : ∀ peer, (s.interfaceName (s.maxLeases - 1) peer).length ≤ 15

/-- A member that is a string. -/
theorem eq_str_of_text {value : Option Json} {text : Text}
    (h : value.bind Json.text? = some text) : value = some (.str text) := by
  match value, h with
  | some (.str _), rfl => rfl

theorem networkAddresses_ok {value : Object} {pool : Network} {dns listener : ℕ}
    {cidr dnsText : Text} (h : networkAddresses value = .ok (pool, dns, listener))
    (hcidr : (field value "ipv4_cidr").bind Json.text? = some cidr)
    (hdns : (field value "dns_address").bind Json.text? = some dnsText) :
    strictIpv4Network cidr = some pool ∧
      ∃ address, ipv4Address dnsText = some address ∧ ipv4 address = dns := by
  unfold networkAddresses at h
  rw [eq_str_of_text hcidr, eq_str_of_text hdns] at h
  split at h
  case h_2 => cases h
  rename_i pool' address listener' hpool haddress _
  cases h
  exact ⟨hpool, address, haddress, rfl⟩

theorem parseNetwork_ok {value : Json} {s : Settings} (h : parseNetwork value = .ok s) :
    ∃ pool dns, s.Accepted pool dns := by
  unfold parseNetwork at h
  simp only [bind, Except.bind, pure, Except.pure] at h
  split at h
  case h_2 => cases h
  rename_i value
  split at h
  · cases h
  split at h
  · cases h
  rename_i addresses haddresses
  obtain ⟨pool, dns, listener⟩ := addresses
  split at h
  case h_2 => cases h
  rename_i cidr hcidr
  split at h
  case h_2 => cases h
  rename_i count hcount
  split at h
  case h_2 => cases h
  rename_i dnsText hdnsText
  split at h
  case h_2 => cases h
  split at h
  case h_2 => cases h
  split at h
  · cases h
  rename_i hrange
  split at h
  case h_2 => cases h
  split at h
  · cases h
  rename_i hpre
  split at h
  case h_2 => cases h
  split at h
  · cases h
  rename_i hnamespace
  split at h
  case h_2 => cases h
  split at h
  · cases h
  rename_i hhost
  split at h
  case h_2 => cases h
  split at h
  · cases h
  rename_i hpeer
  split at h
  · cases h
  rename_i hnames
  cases h
  obtain ⟨hpool, address, haddress, rfl⟩ := networkAddresses_ok haddresses hcidr hdnsText
  dsimp only at hrange
  simp only [not_or, not_not, Bool.not_eq_true, not_lt, ne_eq] at hrange
  obtain ⟨-, hprefixlen, hprivate, hcount', hsize, -, houtside, -⟩ := hrange
  simp only [not_or, not_lt] at hnames
  obtain ⟨-, hsuffixes, hlengthHost, hlengthPeer⟩ := hnames
  obtain ⟨item, hitem, hsubnet⟩ := any_eq_true.mp (Bool.not_eq_false _ ▸ hprivate)
  refine ⟨pool, address, hpool, haddress, hprefixlen, ⟨item, hitem, hsubnet⟩,
    ⟨hcount'.1, hsize⟩, houtside, by simpa using hpre, by simpa using hnamespace,
    by simpa using hhost, by simpa using hpeer, hsuffixes, fun peer => ?_⟩
  cases peer with
  | true => exact hlengthPeer
  | false => exact hlengthHost

/-! ### Applications -/

theorem parseSlots_ok {s : Settings} {assigned : List ℕ} {single : Bool} {policy : Object}
    {slots : List ℕ} (h : parseSlots s assigned single policy = .ok slots) :
    (∀ slot ∈ slots, slot < s.maxLeases ∧ slot ∉ assigned) ∧ slots.Nodup ∧
      (single = true → slots.length = 1) := by
  unfold parseSlots at h
  dsimp only at h
  split at h
  case h_2 => cases h
  split at h
  case h_2 => cases h
  split at h
  · cases h
  rename_i hok
  cases h
  simp only [not_or, not_not, not_and, ne_eq] at hok
  obtain ⟨-, hbound, hnodup, hassigned, hsingle⟩ := hok
  refine ⟨fun slot hslot => ⟨?_, fun hmem => ?_⟩, hnodup, hsingle⟩
  · simpa using all_eq_true.mp hbound slot hslot
  · exact hassigned (any_eq_true.mpr ⟨slot, hslot, by simpa using hmem⟩)

theorem parseAddresses_ok {poolFirst : ℕ} {slots : List ℕ} {policy : Object}
    {addresses : List Text} (h : parseAddresses poolFirst slots policy = .ok addresses) :
    addresses = slots.map fun slot => ipv4Text (poolFirst + slot * 4 + 2) := by
  unfold parseAddresses at h
  dsimp only at h
  split at h
  case h_2 => cases h
  split at h
  case h_2 => cases h
  split at h
  · cases h
  rename_i hok
  cases h
  exact not_not.mp hok

theorem parseSettings_ok {enabled blockLan pinned rawPort : Json} {links port : Option PeerPort}
    {network block pin : Bool}
    (h : parseSettings enabled blockLan pinned rawPort links = .ok (network, block, pin, port))
    (hport : port ≠ none) : network = true ∧ pin = true ∧ rawPort.present = true := by
  unfold parseSettings at h
  dsimp only at h
  split at h
  case h_2 => cases h
  split at h
  · cases h
    exact absurd rfl hport
  · split at h
    · cases h
    rename_i hok
    cases h
    simp only [Bool.or_eq_true, Bool.not_eq_true', not_or, Bool.not_eq_false] at hok
    exact ⟨hok.1, hok.2, rfl⟩
  · split at h
    case h_2 => cases h
    rename_i hnatural
    split at h
    · cases h
    rename_i hok
    cases h
    simp only [Bool.or_eq_true, Bool.not_eq_true', not_or, Bool.not_eq_false] at hok
    refine ⟨hok.1.2, hok.2, ?_⟩
    cases rawPort <;> first | rfl | cases hnatural

theorem parseExecutables_ok {paths result : List Text} {items : List Json}
    (h : parseExecutables paths items = .ok result) :
    (∀ path ∈ result, isExecutable path = true ∧ path ∉ paths) ∧ result.Nodup := by
  induction items generalizing paths result with
  | nil =>
    cases h
    simp
  | cons item items ih =>
    unfold parseExecutables at h
    simp only [bind, Except.bind, pure, Except.pure] at h
    split at h
    case h_2 => cases h
    rename_i path _
    split at h
    · cases h
    rename_i hok
    split at h
    · cases h
    rename_i rest hrest
    cases h
    obtain ⟨hmem, hnodup⟩ := ih hrest
    simp only [Bool.or_eq_true, Bool.not_eq_true', decide_eq_true_eq, not_or,
      Bool.not_eq_false] at hok
    refine ⟨fun path' hpath' => ?_, nodup_cons.mpr ⟨fun hin => ?_, hnodup⟩⟩
    · rcases mem_cons.mp hpath' with rfl | hpath'
      · exact hok
      · exact ⟨(hmem path' hpath').1, fun hin =>
          (hmem path' hpath').2 (mem_append_left _ hin)⟩
    · exact (hmem path hin).2 (mem_append_right _ (mem_singleton.mpr rfl))

/-- An accepted application by itself. -/
structure App.Accepted (s : Settings) (poolFirst : ℕ) (app : App) : Prop where
  slots : ∀ slot ∈ app.slots, slot < s.maxLeases
  addresses : app.addresses = app.slots.map fun slot => ipv4Text (poolFirst + slot * 4 + 2)
  executables : ∀ path ∈ app.executables, isExecutable path = true
  peerPort : app.peerPort ≠ none → app.network = true ∧ app.pinRoute = true ∧ app.slots.length = 1

/-- The sets of the loop are those of the applications, without repetitions. -/
structure Parsing.Accepted (s : Settings) (poolFirst : ℕ) (p : Parsing) : Prop where
  apps : ∀ member ∈ p.apps, member.2.Accepted s poolFirst
  assignedSlots : p.assignedSlots = p.apps.flatMap fun member => member.2.slots
  slots : p.assignedSlots.Nodup
  allPaths : p.paths = p.apps.flatMap fun member => member.2.executables
  paths : p.paths.Nodup

theorem parseApp_ok {s : Settings} {poolFirst : ℕ} {p p' : Parsing} {member : Text × Json}
    (hp : p.Accepted s poolFirst) (h : parseApp s poolFirst p member = .ok p') :
    p'.Accepted s poolFirst := by
  unfold parseApp at h
  simp only [bind, Except.bind, pure, Except.pure] at h
  split at h
  case h_2 => cases h
  rename_i policy _
  split at h
  · cases h
  split at h
  case h_2 => cases h
  rename_i enabled _
  split at h
  · cases h
  rename_i links _
  split at h
  · cases h
  rename_i slots hslots
  split at h
  · cases h
  rename_i addresses haddresses
  split at h
  · cases h
  rename_i settings hsettings
  obtain ⟨network, blockLan, pinned, port⟩ := settings
  dsimp only at h
  split at h
  case h_2 => cases h
  split at h
  · cases h
  split at h
  · cases h
  rename_i paths hpaths
  cases h
  obtain ⟨hslot, hslotsNodup, hsingle⟩ := parseSlots_ok hslots
  obtain ⟨hpath, hpathsNodup⟩ := parseExecutables_ok hpaths
  refine ⟨fun member' hmember => ?_, ?_, ?_, ?_, ?_⟩
  · rcases mem_append.mp hmember with hmember | hmember
    · exact hp.apps member' hmember
    · obtain rfl := mem_singleton.mp hmember
      refine ⟨fun slot hmem => (hslot slot hmem).1, parseAddresses_ok haddresses,
        fun path hmem => (hpath path hmem).1, fun hport => ?_⟩
      obtain ⟨hnetwork, hpin, hpresent⟩ := parseSettings_ok hsettings hport
      exact ⟨hnetwork, hpin, hsingle (by rw [hpresent, Bool.true_or])⟩
  · simp [hp.assignedSlots]
  · exact nodup_append.mpr ⟨hp.slots, hslotsNodup, fun slot hold slot' hnew heq =>
      (hslot slot' hnew).2 (heq ▸ hold)⟩
  · simp [hp.allPaths]
  · exact nodup_append.mpr ⟨hp.paths, hpathsNodup, fun path hold path' hnew heq =>
      (hpath path' hnew).2 (heq ▸ hold)⟩

theorem foldlM_parseApp_ok {s : Settings} {poolFirst : ℕ} {members : List (Text × Json)}
    {p p' : Parsing} (hp : p.Accepted s poolFirst)
    (h : members.foldlM (parseApp s poolFirst) p = .ok p') : p'.Accepted s poolFirst := by
  induction members generalizing p with
  | nil =>
    cases h
    exact hp
  | cons member members ih =>
    rw [foldlM_cons] at h
    cases hmember : parseApp s poolFirst p member with
    | error e =>
      rw [hmember] at h
      cases h
    | ok p₁ =>
      rw [hmember] at h
      exact ih (parseApp_ok hp hmember) h

/-- What an accepted configuration has passed. -/
theorem parseConfiguration_ok {loads : List UInt8 → Option Json} {raw : List UInt8}
    {c : Configuration} (h : parseConfiguration loads raw = .ok c) :
    ∃ (pool : Network) (dns : Address) (p : Parsing), c.network.Accepted pool dns ∧
      p.apps = c.apps ∧
      p.Accepted c.network (first pool) := by
  unfold parseConfiguration at h
  simp only [bind, Except.bind, pure, Except.pure] at h
  split at h
  · cases h
  split at h
  case h_2 => cases h
  split at h
  · cases h
  split at h
  case h_2 => cases h
  split at h
  · cases h
  split at h
  case h_2 => cases h
  split at h
  case h_2 => cases h
  split at h
  · cases h
  split at h
  case h_2 => cases h
  split at h
  · cases h
  rename_i settings hsettings
  obtain ⟨pool, dns, haccepted⟩ := parseNetwork_ok hsettings
  rw [haccepted.cidr] at h
  dsimp only at h
  split at h
  · cases h
  rename_i p hp
  cases h
  exact ⟨pool, dns, p, haccepted, rfl, foldlM_parseApp_ok
    ⟨by simp, rfl, nodup_nil, rfl, nodup_nil⟩ hp⟩

end Preseed.AppPolicy
