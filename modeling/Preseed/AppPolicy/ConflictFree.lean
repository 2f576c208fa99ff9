import Preseed.AppPolicy.Rules
import Preseed.ThemeArchive.Names

/-!
# Accepted policies are free of conflicts

The blocks of the slots are four addresses each, disjoint and inside the pool, the
interface names differ, and no two applications share a slot or an executable.
-/

namespace Preseed.AppPolicy

open Preseed.Ipaddress List Nat

/-! ### Address ranges -/

/-- A netmask clears the host bits. -/
theorem and_netmask {ip prefixlen : ℕ} (hip : ip < 2 ^ 32) (hpre : prefixlen ≤ 32) :
    ip &&& netmask 32 prefixlen = ip / 2 ^ (32 - prefixlen) * 2 ^ (32 - prefixlen) := by
  refine eq_of_testBit_eq fun i => ?_
  rw [testBit_and, netmask, testBit_xor, testBit_shiftRight,
    testBit_two_pow_sub_one, testBit_two_pow_sub_one, testBit_mul_two_pow,
    testBit_div_two_pow]
  by_cases hi : i < 32
  · by_cases hlow : 32 - prefixlen ≤ i
    · have hhigh : ¬prefixlen + i < 32 := by omega
      have hsum : i - (32 - prefixlen) + (32 - prefixlen) = i := by omega
      simp [hi, hlow, hhigh, hsum]
    · have hhigh : prefixlen + i < 32 := by omega
      simp [hi, hlow, hhigh]
  · have hbit : ip.testBit i = false :=
      Nat.testBit_lt_two_pow (hip.trans_le (Nat.pow_le_pow_right (by decide) (by omega)))
    have hsum : i - (32 - prefixlen) + (32 - prefixlen) = i := by omega
    simp [hbit, hsum]

/-- The addresses of a network. -/
def addressesOf (network : Network) : Set ℕ :=
  Set.Ico (first network) (first network + 2 ^ (32 - network.prefixlen))

/-- An IPv4 network of at most 32 bits, without host bits. -/
structure IsIpv4 (network : Network) : Prop where
  address : network.networkAddress = .v4 (first network)
  lt : first network < 2 ^ 32
  prefixlen : network.prefixlen ≤ 32
  base : first network / 2 ^ (32 - network.prefixlen) * 2 ^ (32 - network.prefixlen) =
    first network

theorem isIpv4_of_strict {text : Text} {network : Network}
    (h : strictIpv4Network text = some network) : IsIpv4 network := by
  unfold strictIpv4Network at h
  split at h
  case h_2 => cases h
  rename_i network' address rest hnetwork _
  split at h
  case isFalse => cases h
  rename_i haddress
  cases h
  obtain ⟨-, -, -, ip, hip⟩ := ipv4Address_some haddress
  obtain ⟨⟨hvalid, hpre, hnormal⟩, -⟩ := ipv4Network_some hnetwork
  rw [hip] at hvalid hpre hnormal
  have hfirst : first network = ip := by rw [first, hip, ipv4]
  refine ⟨by rw [hip, hfirst], hfirst ▸ hvalid, hpre, ?_⟩
  rw [hfirst, ← and_netmask hvalid hpre]
  exact Address.v4.inj hnormal

namespace IsIpv4

variable {network : Network}

/-- The last address ends the range. -/
theorem last_eq (h : IsIpv4 network) :
    last network = first network + (2 ^ (32 - network.prefixlen) - 1) := by
  have hmask : netmask 32 network.prefixlen ^^^ (2 ^ 32 - 1) =
      2 ^ (32 - network.prefixlen) - 1 := by
    have hpre := h.prefixlen
    generalize network.prefixlen = p at hpre ⊢
    interval_cases p <;> rfl
  have hpos := Nat.two_pow_pos (32 - network.prefixlen)
  rw [last, hmask]
  conv_lhs => rw [← h.base, mul_comm]
  rw [← two_pow_add_eq_or_of_lt (by omega), mul_comm, h.base]

/-- An address in the range is in the network. -/
theorem contains_of_mem (h : IsIpv4 network) {ip : ℕ} (hlt : ip < 2 ^ 32)
    (hip : ip ∈ addressesOf network) : contains network ip = true := by
  obtain ⟨hle, hend⟩ := hip
  have hdiv : ip / 2 ^ (32 - network.prefixlen) =
      first network / 2 ^ (32 - network.prefixlen) := by
    have hbase := h.base
    refine Nat.div_eq_of_lt_le (by omega) ?_
    rw [Nat.succ_mul]
    omega
  rw [contains, decide_eq_true_eq, and_netmask hlt h.prefixlen, hdiv, h.base]

end IsIpv4

/-- A subnet has its addresses in the network. -/
theorem addressesOf_subset {network other : Network} (h : IsIpv4 network)
    (hother : other ∈ privateIpv4Networks) (hsubnet : subnetOf network other = true) :
    addressesOf network ⊆ addressesOf other := by
  have hlast : ∀ item ∈ privateIpv4Networks,
      last item = first item + (2 ^ (32 - item.prefixlen) - 1) := by
    decide
  have hpos := Nat.two_pow_pos (32 - network.prefixlen)
  have hposOther := Nat.two_pow_pos (32 - other.prefixlen)
  rw [subnetOf, decide_eq_true_eq, h.last_eq, hlast other hother] at hsubnet
  rintro ip ⟨hle, hend⟩
  exact ⟨by omega, by omega⟩

/-- The four addresses of a slot. -/
def block (pool : Network) (slot : ℕ) : Set ℕ :=
  Set.Ico (first pool + slot * 4) (first pool + slot * 4 + 4)

theorem block_disjoint {pool : Network} {slot slot' : ℕ} (h : slot ≠ slot') :
    Disjoint (block pool slot) (block pool slot') := by
  rw [Set.disjoint_left]
  rintro ip ⟨hle, hend⟩ ⟨hle', hend'⟩
  omega

/-- The blocks of all slots are in the pool. -/
theorem Settings.Accepted.block_subset {s : Settings} {pool : Network} {dns : Address}
    (h : s.Accepted pool dns) {slot : ℕ} (hslot : slot < s.maxLeases) :
    block pool slot ⊆ addressesOf pool := by
  have hpool := isIpv4_of_strict h.cidr
  have hsize := h.maxLeases.2
  have hpos := Nat.two_pow_pos (32 - pool.prefixlen)
  rw [numAddresses, hpool.last_eq] at hsize
  rintro ip ⟨hle, hend⟩
  exact ⟨by omega, by omega⟩

/-- No block has the address of the name server. -/
theorem Settings.Accepted.dns_notMem {s : Settings} {pool : Network} {dns : Address}
    (h : s.Accepted pool dns) {slot : ℕ} (hslot : slot < s.maxLeases) :
    ipv4 dns ∉ block pool slot := by
  intro hmem
  obtain ⟨hvalid, -, -, ip, rfl⟩ := ipv4Address_some h.dnsAddress
  have hcontains :=
    (isIpv4_of_strict h.cidr).contains_of_mem hvalid (h.block_subset hslot hmem)
  have houtside := h.outside
  rw [ipv4] at houtside
  rw [hcontains] at houtside
  cases houtside

/-! ### Interface names -/

theorem isLowerDigit_dash : isLowerDigit '-' = false := by decide

/-- A name of an interface has no dash. -/
theorem dash_notMem_of_isInterface {text : Text} (h : isInterface text = true) : '-' ∉ text := by
  match text, h with
  | c :: cs, h =>
    simp only [isInterface, matchesName, Bool.and_eq_true, all_eq_true] at h
    intro hmem
    rcases mem_cons.mp hmem with rfl | hmem
    · exact absurd h.1.1 (by decide)
    · have hdash := h.1.2 '-' hmem
      rw [isLowerDigit_dash] at hdash
      cases hdash

/-- A suffix starts with a dash. -/
theorem exists_of_isSuffix {text : Text} (h : isSuffix text = true) :
    ∃ rest, text = '-' :: rest := by
  unfold isSuffix at h
  split at h
  · exact ⟨_, rfl⟩
  · cases h

/-- A slot is told by its digits. -/
theorem decimal_injective {m n : ℕ} (h : decimal m = decimal n) : m = n := by
  rw [← ofDigits_decimal m, h, ofDigits_decimal]

/-- Smaller numbers have no more digits. -/
theorem length_decimal_mono {m n : ℕ} (h : m ≤ n) : (decimal m).length ≤ (decimal n).length := by
  have hpos : 0 < (decimal n).length := length_toDigits_pos
  have hlt : n < 10 ^ (decimal n).length :=
    (length_toDigits_le_iff (by decide) hpos).mp (le_refl _)
  exact length_decimal hpos (h.trans_lt hlt)

namespace Settings.Accepted

variable {s : Settings} {pool : Network} {dns : Address}

section

variable (h : s.Accepted pool dns)
include h

/-- A name ends in a suffix, and has no dash before it. -/
theorem interfaceName_eq (slot : ℕ) (peer : Bool) : ∃ rest,
    (if peer then s.peerInterfaceSuffix else s.hostInterfaceSuffix) = '-' :: rest ∧
      s.interfaceName slot peer = (s.hostInterfacePrefix ++ decimal slot) ++ '-' :: rest ∧
      '-' ∉ s.hostInterfacePrefix ++ decimal slot := by
  have hsuffix :
      isSuffix (if peer then s.peerInterfaceSuffix else s.hostInterfaceSuffix) = true := by
    cases peer with
    | true => exact h.peerSuffix
    | false => exact h.hostSuffix
  obtain ⟨rest, hrest⟩ := exists_of_isSuffix hsuffix
  refine ⟨rest, hrest, by rw [Settings.interfaceName, hrest], ?_⟩
  rw [mem_append, not_or]
  refine ⟨dash_notMem_of_isInterface h.hostPrefix, fun hmem => ?_⟩
  exact absurd (isDigit_of_mem_decimal hmem) (by decide)

/-- A name tells the slot and the side. -/
theorem interfaceName_inj {slot slot' : ℕ} {peer peer' : Bool}
    (heq : s.interfaceName slot peer = s.interfaceName slot' peer') :
    slot = slot' ∧ peer = peer' := by
  obtain ⟨rest, hsuffix, hname, hdash⟩ := h.interfaceName_eq slot peer
  obtain ⟨rest', hsuffix', hname', hdash'⟩ := h.interfaceName_eq slot' peer'
  rw [hname, hname'] at heq
  have hsplit := congrArg (List.splitOn '-') heq
  rw [splitOn_append_cons_self_of_not_mem hdash,
    splitOn_append_cons_self_of_not_mem hdash'] at hsplit
  have hstart := (List.cons.inj hsplit).1
  rw [hstart, append_cancel_left_eq] at heq
  refine ⟨decimal_injective (append_cancel_left hstart), ?_⟩
  have hsame : (if peer then s.peerInterfaceSuffix else s.hostInterfaceSuffix) =
      if peer' then s.peerInterfaceSuffix else s.hostInterfaceSuffix := by
    rw [hsuffix, hsuffix', heq]
  cases peer <;> cases peer'
  · rfl
  · exact absurd hsame h.suffixes
  · exact absurd hsame.symm h.suffixes
  · rfl

/-- All names fit. -/
theorem length_interfaceName {slot : ℕ} (hslot : slot < s.maxLeases)
    (peer : Bool) : (s.interfaceName slot peer).length ≤ 15 := by
  have hlength := h.length peer
  have hdigits := length_decimal_mono (le_sub_one_of_lt hslot)
  simp only [Settings.interfaceName, length_append] at hlength ⊢
  omega

/-- The interface of the namespace has another name. -/
theorem interfaceName_ne (slot : ℕ) (peer : Bool) :
    s.interfaceName slot peer ≠ s.namespaceInterface := by
  obtain ⟨rest, -, hname, -⟩ := h.interfaceName_eq slot peer
  intro heq
  refine dash_notMem_of_isInterface h.namespaceInterface ?_
  rw [← heq, hname]
  exact mem_append_right _ mem_cons_self

end

end Settings.Accepted

/-! ### Executables -/

/-- An absolute path without empty, current or parent components. -/
def NormalPath (path : Text) : Prop :=
  ∃ components : List Text, components ≠ [] ∧ path = '/' :: ['/'].intercalate components ∧
    ∀ component ∈ components, component ≠ [] ∧ component ≠ ['.'] ∧ component ≠ ['.', '.'] ∧
      '/' ∉ component

theorem isExecutable_spec {path : Text} (h : isExecutable path = true) :
    NormalPath path ∧ ∃ start ∈ executablePrefixes, start <+: path := by
  simp only [isExecutable, decide_eq_true_eq, any_eq_true, isPrefixOf_iff_prefix] at h
  obtain ⟨-, hstart, -, htext, hparent⟩ := h
  refine ⟨⟨pathParts path, fun hnil => ?_, htext.symm, fun component hmem => ?_⟩, hstart⟩
  · obtain ⟨start, hmem, hpre⟩ := hstart
    rw [pathText, hnil] at htext
    have hlong : ∀ start ∈ executablePrefixes, 2 ≤ start.length := by decide
    have hlength := hpre.length_le
    have htwo := hlong start hmem
    rw [← htext] at hlength
    simp only [length_cons] at hlength
    have hzero : (['/'].intercalate ([] : List Text)).length = 0 := rfl
    omega
  · obtain ⟨hsplit, hplain⟩ := mem_filter.mp hmem
    rw [decide_eq_true_eq] at hplain
    refine ⟨hplain.1, hplain.2, fun hdots => hparent (hdots ▸ hmem), ?_⟩
    exact ThemeArchive.slash_notMem_splitOn hsplit

/-! ### Accepted configurations -/

/-- A configuration without conflicts, over its pool and its name server. -/
structure ConflictFree (c : Configuration) (pool : Network) (dns : ℕ) : Prop where
  cidr : strictIpv4Network c.network.ipv4Cidr = some pool
  dnsAddress : ipv4Address c.network.dnsAddress = some (.v4 dns)
  /-- The pool is private, and every block is in it. -/
  isPrivate : ∃ item ∈ privateIpv4Networks, addressesOf pool ⊆ addressesOf item
  inside : ∀ slot < c.network.maxLeases, block pool slot ⊆ addressesOf pool
  disjoint : ∀ slot slot', slot ≠ slot' → Disjoint (block pool slot) (block pool slot')
  dns : ∀ slot < c.network.maxLeases, dns ∉ block pool slot
  /-- The slots of an application are slots of the pool, and no two applications share one. -/
  slots : ∀ member ∈ c.apps, member.2.slots.Nodup ∧
    ∀ slot ∈ member.2.slots, slot < c.network.maxLeases
  shared : c.apps.Pairwise fun a b => a.2.slots.Disjoint b.2.slots
  /-- The address of an application is the second usable one of its block. -/
  addresses : ∀ member ∈ c.apps, member.2.addresses =
    member.2.slots.map fun slot => ipv4Text (first pool + slot * 4 + 2)
  /-- Interface names. -/
  names : ∀ slot < c.network.maxLeases, ∀ slot' < c.network.maxLeases, ∀ peer peer',
    c.network.interfaceName slot peer = c.network.interfaceName slot' peer' →
      slot = slot' ∧ peer = peer'
  fits : ∀ slot < c.network.maxLeases, ∀ peer, (c.network.interfaceName slot peer).length ≤ 15 ∧
    c.network.interfaceName slot peer ≠ c.network.namespaceInterface
  /-- Executables. -/
  executables : c.apps.Pairwise fun a b => a.2.executables.Disjoint b.2.executables
  paths : ∀ member ∈ c.apps, ∀ path ∈ member.2.executables,
    NormalPath path ∧ ∃ start ∈ executablePrefixes, start <+: path
  /-- An application with a peer port. -/
  peerPort : ∀ member ∈ c.apps, member.2.peerPort ≠ none →
    member.2.network = true ∧ member.2.pinRoute = true ∧ member.2.slots.length = 1

/-- Whatever the bytes decode to, a configuration that is accepted has no conflicts. -/
theorem accepted_conflict_free {loads : List UInt8 → Option Json} {raw : List UInt8}
    {c : Configuration} (h : parseConfiguration loads raw = .ok c) :
    ∃ pool dns, ConflictFree c pool dns := by
  obtain ⟨pool, dns, p, hs, happs, hp⟩ := parseConfiguration_ok h
  obtain ⟨hvalid, -, -, ip, hip⟩ := ipv4Address_some hs.dnsAddress
  have hslots : (c.apps.flatMap fun member => member.2.slots).Nodup := by
    rw [← happs, ← hp.assignedSlots]
    exact hp.slots
  have hpaths : (c.apps.flatMap fun member => member.2.executables).Nodup := by
    rw [← happs, ← hp.allPaths]
    exact hp.paths
  have hmember : ∀ member ∈ c.apps, member.2.Accepted c.network (first pool) := by
    rw [← happs]
    exact hp.apps
  obtain ⟨hslotsNodup, hshared⟩ := List.nodup_flatMap.mp hslots
  obtain ⟨item, hitem, hsubnet⟩ := hs.isPrivate
  subst hip
  exact ⟨pool, ip,
    { cidr := hs.cidr
      dnsAddress := hs.dnsAddress
      isPrivate := ⟨item, hitem, addressesOf_subset (isIpv4_of_strict hs.cidr) hitem hsubnet⟩
      inside := fun _ => hs.block_subset
      disjoint := fun _ _ => block_disjoint
      dns := fun _ => hs.dns_notMem
      slots := fun member hmem => ⟨hslotsNodup member hmem, (hmember member hmem).slots⟩
      shared := hshared
      addresses := fun member hmem => (hmember member hmem).addresses
      names := fun _ _ _ _ _ _ => hs.interfaceName_inj
      fits := fun slot hslot peer =>
        ⟨hs.length_interfaceName hslot peer, hs.interfaceName_ne slot peer⟩
      executables := (List.nodup_flatMap.mp hpaths).2
      paths := fun member hmem path hpath =>
        isExecutable_spec ((hmember member hmem).executables path hpath)
      peerPort := fun member hmem => (hmember member hmem).peerPort }⟩

/-- A configuration of one application with a peer port. -/
def oneApp : Json :=
  .object [("version".toList, .int 2), ("desktop_user".toList, .str "user".toList),
    ("network".toList, .object [("ipv4_cidr".toList, .str "10.1.0.0/24".toList),
      ("max_leases".toList, .int 8), ("host_interface_prefix".toList, .str "av".toList),
      ("host_interface_suffix".toList, .str "-h".toList),
      ("peer_interface_suffix".toList, .str "-p".toList),
      ("namespace_interface".toList, .str "eth0".toList),
      ("dns_address".toList, .str "10.2.0.1".toList),
      ("dns_host_address".toList, .str "127.0.0.1".toList),
      ("dns_host_port".toList, .int 5300)]),
    ("apps".toList, .object [("chat".toList, .object [("network".toList, .bool true),
      ("peer_port".toList, .int 6000), ("slots".toList, .list [.int 3]),
      ("addresses".toList, .list [.str "10.1.0.14".toList]),
      ("executables".toList, .list [.str "/usr/bin/chat".toList])])])]

/-- The pieces of its text. -/
def oneAppText : List String :=
  ["\x7b\"version\":2,", "\"desktop_user\":\"user\",", "\"network\":\x7b",
    "\"ipv4_cidr\":\"10.1.0.0/24\",", "\"max_leases\":8,", "\"host_interface_prefix\":\"av\",",
    "\"host_interface_suffix\":\"-h\",", "\"peer_interface_suffix\":\"-p\",",
    "\"namespace_interface\":\"eth0\",", "\"dns_address\":\"10.2.0.1\",",
    "\"dns_host_address\":\"127.0.0.1\",", "\"dns_host_port\":5300\x7d,", "\"apps\":\x7b",
    "\"chat\":\x7b\"network\":true,", "\"peer_port\":6000,", "\"slots\":[3],",
    "\"addresses\":[\"10.1.0.14\"],", "\"executables\":[", "\"/usr/bin/chat\"]\x7d\x7d\x7d"]

/-- Its bytes. -/
def oneAppBytes : List UInt8 := (oneAppText.flatMap String.toList).map fun c => UInt8.ofNat c.toNat

theorem accepted_conflict_free_one : ∃ c pool dns,
    parseConfiguration (fun raw => if raw = oneAppBytes then some oneApp else none) oneAppBytes =
      .ok c ∧ c.apps.length = 1 ∧ ConflictFree c pool dns := by
  have hrun : (parseConfiguration (fun raw => if raw = oneAppBytes then some oneApp else none)
      oneAppBytes).toOption.map (fun c => c.apps.length) = some 1 := by
    decide +kernel
  cases h : parseConfiguration (fun raw => if raw = oneAppBytes then some oneApp else none)
      oneAppBytes with
  | error e => simp [h, Except.toOption] at hrun
  | ok c =>
    rw [h] at hrun
    obtain ⟨pool, dns, hfree⟩ := accepted_conflict_free h
    exact ⟨c, pool, dns, rfl, Option.some.inj hrun, hfree⟩

end Preseed.AppPolicy
