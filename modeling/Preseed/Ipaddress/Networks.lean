import Preseed.Ipaddress.RoundTrip

/-!
# Networks are read back

What `ip_network` accepts has a normal form, and its text is read back. The text is made of
digits and separators, unless the network keeps the scope of its address.
-/

namespace Preseed.Ipaddress

open List Address

/-! ## What is read -/

variable {text : Text}

theorem mem_splitOn {separator c : Char} (h : c ∈ text) :
    c = separator ∨ ∃ part ∈ text.splitOn separator, c ∈ part := by
  have htext : [separator].intercalate (text.splitOn separator) = text :=
    intercalate_splitOn separator
  rw [← htext] at h
  exact mem_intercalate h

variable {n : ℕ}

theorem parseOctet_some (h : parseOctet text = some n) :
    n < 256 ∧ ∀ c ∈ text, c.isDigit = true := by
  unfold parseOctet at h
  simp only [Option.ite_none_left_eq_some] at h
  obtain ⟨hdigits, -, -, hle, hn⟩ := h
  cases hn
  rw [Bool.not_eq_false, asciiDigits, Bool.and_eq_true, all_eq_true] at hdigits
  exact ⟨by omega, hdigits.2⟩

theorem digitValue_lt (c : Char) : digitValue c < 16 := by
  unfold digitValue
  split
  · rename_i hdigit
    rw [Char.isDigit, Bool.and_eq_true, decide_eq_true_iff, decide_eq_true_iff] at hdigit
    have hle : c.toNat ≤ '9'.toNat := UInt32.le_iff_toNat_le.mp hdigit.2
    have hnine : '9'.toNat = 57 := rfl
    have hzero : '0'.toNat = 48 := rfl
    omega
  split
  · rename_i hlower
    have hle : c.toNat ≤ 'f'.toNat := UInt32.le_iff_toNat_le.mp hlower.2
    have hf : 'f'.toNat = 102 := rfl
    have ha : 'a'.toNat = 97 := rfl
    omega
  split
  · rename_i hupper
    have hle : c.toNat ≤ 'F'.toNat := UInt32.le_iff_toNat_le.mp hupper.2
    have hf : 'F'.toNat = 70 := rfl
    have ha : 'A'.toNat = 65 := rfl
    omega
  · decide

theorem parseHextet_some (h : parseHextet text = some n) : n < 65536 := by
  unfold parseHextet at h
  rw [Option.ite_none_left_eq_some] at h
  obtain ⟨hnot, hn⟩ := h
  cases hn
  have hlength : text.length ≤ 4 := by
    rw [not_or, not_or] at hnot
    omega
  have hvalues : ofDigits 16 text = accumulate 16 (text.map digitValue) := by
    simp only [ofDigits, accumulate, foldl_map, Nat.mul_comm]
  have hlt : ∀ value ∈ text.map digitValue, value < 16 := by
    intro value hvalue
    obtain ⟨c, -, rfl⟩ := mem_map.mp hvalue
    exact digitValue_lt c
  rw [hvalues]
  calc
    accumulate 16 (text.map digitValue) < 16 ^ (text.map digitValue).length := accumulate_lt hlt
    _ ≤ 16 ^ 4 := Nat.pow_le_pow_right (by decide) (by rw [length_map]; exact hlength)

/-- The elements that a partial map gives. -/
theorem mapM_some {α β : Type} {f : α → Option β} {xs : List α} {ys : List β}
    (h : xs.mapM f = some ys) :
    ys.length = xs.length ∧ (∀ y ∈ ys, ∃ x ∈ xs, f x = some y) ∧ ∀ x ∈ xs, ∃ y, f x = some y := by
  induction xs generalizing ys with
  | nil =>
    cases h
    exact ⟨rfl, nofun, nofun⟩
  | cons x xs ih =>
    rw [mapM_cons] at h
    obtain ⟨y, hy, hrest⟩ := Option.bind_eq_some_iff.mp h
    obtain ⟨rest, hrest', hys⟩ := Option.bind_eq_some_iff.mp hrest
    cases hys
    obtain ⟨hlength, hback, hforth⟩ := ih hrest'
    refine ⟨by rw [length_cons, length_cons, hlength], fun z hz => ?_, fun z hz => ?_⟩
    · rcases mem_cons.mp hz with rfl | hz
      · exact ⟨x, by simp, hy⟩
      · obtain ⟨w, hw, hf⟩ := hback z hz
        exact ⟨w, by simp [hw], hf⟩
    · rcases mem_cons.mp hz with rfl | hz
      · exact ⟨y, hy⟩
      · exact hforth z hz

theorem ipv4Int_some (h : ipv4Int text = some n) :
    n < 2 ^ 32 ∧ ∀ c ∈ text, c.isDigit = true ∨ c = '.' := by
  unfold ipv4Int at h
  rw [Option.ite_none_left_eq_some, not_not] at h
  obtain ⟨hlength, h⟩ := h
  obtain ⟨values, hvalues, rfl⟩ := Option.map_eq_some_iff.mp h
  obtain ⟨hlength', hback, hforth⟩ := mapM_some hvalues
  constructor
  · have hlt : ∀ value ∈ values, value < 256 := by
      intro value hvalue
      obtain ⟨part, -, hpart⟩ := hback value hvalue
      exact (parseOctet_some hpart).1
    have hbound := accumulate_lt hlt
    rw [hlength', hlength] at hbound
    exact hbound
  · intro c hc
    rcases mem_splitOn hc with hdot | ⟨part, hpart, hc⟩
    · exact .inr hdot
    · obtain ⟨value, hvalue⟩ := hforth part hpart
      exact .inl ((parseOctet_some hvalue).2 c hc)

theorem hextetsInt_some {parts : List Text} {high low skipped : ℕ} (hsum : high + low + skipped = 8)
    (h : hextetsInt parts high low skipped = some n) :
    n < 2 ^ 128 := by
  unfold hextetsInt at h
  obtain ⟨above, habove, h⟩ := Option.bind_eq_some_iff.mp h
  obtain ⟨below, hbelow, h⟩ := Option.bind_eq_some_iff.mp h
  cases h
  obtain ⟨haboveLength, haboveBack, -⟩ := mapM_some habove
  obtain ⟨hbelowLength, hbelowBack, -⟩ := mapM_some hbelow
  rw [length_take] at haboveLength
  rw [length_drop] at hbelowLength
  have hlt : ∀ value ∈ above ++ List.replicate skipped 0 ++ below, value < 65536 := by
    intro value hvalue
    rw [mem_append, mem_append] at hvalue
    rcases hvalue with (hvalue | hvalue) | hvalue
    · obtain ⟨part, -, hpart⟩ := haboveBack value hvalue
      exact parseHextet_some hpart
    · rw [(mem_replicate.mp hvalue).2]
      decide
    · obtain ⟨part, -, hpart⟩ := hbelowBack value hvalue
      exact parseHextet_some hpart
  refine Nat.lt_of_lt_of_le (accumulate_lt hlt) ?_
  calc
    65536 ^ (above ++ List.replicate skipped 0 ++ below).length ≤ 65536 ^ 8 := by
      refine Nat.pow_le_pow_right (by decide) ?_
      simp only [length_append, length_replicate]
      omega
    _ = 2 ^ 128 := by decide

theorem ipv6Int_some (h : ipv6Int text = some n) : n < 2 ^ 128 := by
  unfold ipv6Int at h
  rw [Option.ite_none_left_eq_some] at h
  obtain ⟨parts, -, h⟩ := Option.bind_eq_some_iff.mp h.2
  unfold partsInt at h
  rw [Option.ite_none_left_eq_some] at h
  obtain ⟨-, h⟩ := h
  split at h
  · rw [Option.ite_none_left_eq_some, Option.ite_none_left_eq_some] at h
    exact hextetsInt_some (by omega) h.2.2
  · rw [Option.ite_none_left_eq_some] at h
    exact hextetsInt_some (by decide) h.2

theorem orElse_eq_some {α : Type} {x y : Option α} {a : α} :
    (x <|> y) = some a ↔ x = some a ∨ x = none ∧ y = some a := by
  cases x <;> simp

/-! ## Prefixes -/

theorem prefixFromPrefixString_some {maxPrefixlen : ℕ}
    (h : prefixFromPrefixString maxPrefixlen text = some n) :
    n ≤ maxPrefixlen ∧ ∀ c ∈ text, c.isDigit = true := by
  unfold prefixFromPrefixString at h
  rw [Option.ite_none_right_eq_some] at h
  obtain ⟨⟨hdigits, hle⟩, hn⟩ := h
  cases hn
  rw [asciiDigits, Bool.and_eq_true, all_eq_true] at hdigits
  exact ⟨hle, hdigits.2⟩

theorem prefixFromIpInt_some {ip : ℕ} (h : prefixFromIpInt ip = some n) : n ≤ 32 := by
  unfold prefixFromIpInt at h
  rw [Option.ite_none_right_eq_some] at h
  obtain rfl := Option.some.inj h.2
  exact Nat.sub_le 32 _

theorem ipv4Prefixlen_some (h : ipv4Prefixlen text = some n) :
    n ≤ 32 ∧ ∀ c ∈ text, c.isDigit = true ∨ c = '.' := by
  rcases orElse_eq_some.mp h with h | ⟨-, h⟩
  · obtain ⟨hle, hdigits⟩ := prefixFromPrefixString_some h
    exact ⟨hle, fun c hc => .inl (hdigits c hc)⟩
  · obtain ⟨ip, hip, h⟩ := Option.bind_eq_some_iff.mp h
    refine ⟨?_, (ipv4Int_some hip).2⟩
    rcases orElse_eq_some.mp h with h | ⟨-, h⟩
    · exact prefixFromIpInt_some h
    · exact prefixFromIpInt_some h

/-! ## Addresses -/

/-- A scope that `_split_scope_id` finds in an address. -/
def ScopeId (scope : Option Text) : Prop :=
  ∀ text, scope = some text → text ≠ [] ∧ '%' ∉ text ∧ '/' ∉ text

/-- The addresses that are read. -/
def Address.Valid : Address → Prop
  | v4 ip => ip < 2 ^ 32
  | v6 ip scope => ip < 2 ^ 128 ∧ ScopeId scope

/-- `_scope_id`. -/
def Address.scope : Address → Option Text
  | v4 _ => none
  | v6 _ scope => scope

theorem mem_ipv6Text {c : Char} (hc : c ∈ ipv6Text n) :
    isHexDigit c = true ∨ c = ':' ∨ c = '.' := by
  unfold ipv6Text at hc
  split at hc
  · rw [mem_append, mem_cons] at hc
    rcases hc with hc | hc | hc
    · rcases isHexDigit_or_colon_of_mem_ipv6IntText hc with hc | hc
      · exact .inl hc
      · exact .inr (.inl hc)
    · exact .inr (.inl hc)
    · rcases isDigit_or_dot_of_mem_ipv4Text hc with hc | hc
      · exact .inl (by simp [isHexDigit, hc])
      · exact .inr (.inr hc)
  · rcases isHexDigit_or_colon_of_mem_ipv6IntText hc with hc | hc
    · exact .inl hc
    · exact .inr (.inl hc)

/-- The text of an IPv6 address has a colon. -/
theorem colon_mem_ipv6Text (n : ℕ) : ':' ∈ ipv6Text n := by
  unfold ipv6Text
  split
  · simp
  · by_contra hcolon
    have hlength := length_compressHextets n
    have hsplit : (ipv6IntText n).splitOn ':' = compressHextets ((hextets n).map hexadecimal) :=
      splitOn_intercalate ':' colon_notMem_compressHextets
        (fun hnil => by rw [hnil] at hlength; simp at hlength)
    rw [splitOn_eq_singleton hcolon] at hsplit
    rw [← hsplit] at hlength
    simp at hlength

theorem Address.colon_mem_text (ip : ℕ) (scope : Option Text) : ':' ∈ (v6 ip scope).text := by
  cases scope with
  | none => exact colon_mem_ipv6Text ip
  | some scope => exact mem_append_left _ (colon_mem_ipv6Text ip)

theorem slash_notMem_ipv6Text (n : ℕ) : '/' ∉ ipv6Text n := fun h => by
  rcases mem_ipv6Text h with h | h | h
  · exact absurd h (by decide)
  · exact absurd h (by decide)
  · exact absurd h (by decide)

theorem percent_notMem_ipv6Text (n : ℕ) : '%' ∉ ipv6Text n := fun h => by
  rcases mem_ipv6Text h with h | h | h
  · exact absurd h (by decide)
  · exact absurd h (by decide)
  · exact absurd h (by decide)

variable {address : Address}

theorem Address.slash_notMem_text (h : address.Valid) : '/' ∉ address.text := by
  cases address with
  | v4 ip =>
    intro hslash
    rcases isDigit_or_dot_of_mem_ipv4Text hslash with h | h
    · exact absurd h (by decide)
    · exact absurd h (by decide)
  | v6 ip scope =>
    cases scope with
    | none => exact slash_notMem_ipv6Text ip
    | some scope =>
      rw [text, mem_append, mem_cons, not_or, not_or]
      exact ⟨slash_notMem_ipv6Text ip, by decide, (h.2 scope rfl).2.2⟩

/-- The percent sign of a text is that of its scope. -/
theorem Address.percent_mem_text (address : Address) :
    '%' ∈ address.text ↔ address.scope.isSome = true := by
  cases address with
  | v4 ip =>
    refine ⟨fun hpercent => ?_, nofun⟩
    rcases isDigit_or_dot_of_mem_ipv4Text hpercent with h | h
    · exact absurd h (by decide)
    · exact absurd h (by decide)
  | v6 ip scope =>
    cases scope with
    | none => exact ⟨fun h => absurd h (percent_notMem_ipv6Text ip), nofun⟩
    | some scope => simp [Address.text, Address.scope]

theorem splitScopeId_append {scope : Text} (htext : '%' ∉ text) (hnil : scope ≠ [])
    (hscope : '%' ∉ scope) : splitScopeId (text ++ '%' :: scope) = some (text, some scope) := by
  have hne : ∀ c ∈ text, (decide (c ≠ '%')) = true := by
    intro c hc
    rw [decide_eq_true_iff]
    rintro rfl
    exact htext hc
  unfold splitScopeId
  rw [if_pos (by simp)]
  simp only [dropWhile_append_of_pos hne, takeWhile_append_of_pos hne]
  simp [hnil, hscope]

theorem ipv4Address_of_colon (h : ':' ∈ text) : ipv4Address text = none := by
  unfold ipv4Address
  split
  · rfl
  · cases hip : ipv4Int text with
    | none => rfl
    | some ip =>
      rcases (ipv4Int_some hip).2 _ h with h | h
      · exact absurd h (by decide)
      · exact absurd h (by decide)

/-- The text of an address is read back. -/
theorem ipv4Address_text {ip : ℕ} (h : ip < 2 ^ 32) :
    ipv4Address (v4 ip).text = some (.v4 ip) := by
  unfold ipv4Address
  rw [if_neg (slash_notMem_text (show (v4 ip).Valid from h)), text, ipv4Int_ipv4Text h]
  rfl

theorem ipv6Address_text {ip : ℕ} {scope : Option Text} (h : (Address.v6 ip scope).Valid) :
    ipv6Address (v6 ip scope).text = some (.v6 ip scope) := by
  unfold ipv6Address
  rw [if_neg (slash_notMem_text h)]
  cases scope with
  | none =>
    rw [text, splitScopeId, if_neg (percent_notMem_ipv6Text ip), Option.bind_some]
    dsimp only
    rw [ipv6Int_ipv6Text h.1]
    rfl
  | some scope =>
    obtain ⟨hnil, hpercent, -⟩ := h.2 scope rfl
    rw [text, splitScopeId_append (percent_notMem_ipv6Text ip) hnil hpercent,
      Option.bind_some]
    dsimp only
    rw [ipv6Int_ipv6Text h.1]
    rfl

/-- What is read as an address. -/
theorem ipv4Address_some (h : ipv4Address text = some address) :
    address.Valid ∧ address.scope = none ∧ '%' ∉ text ∧ ∃ ip, address = .v4 ip := by
  unfold ipv4Address at h
  rw [Option.ite_none_left_eq_some] at h
  obtain ⟨ip, hip, rfl⟩ := Option.map_eq_some_iff.mp h.2
  obtain ⟨hlt, hchars⟩ := ipv4Int_some hip
  refine ⟨hlt, rfl, fun hpercent => ?_, ip, rfl⟩
  rcases hchars _ hpercent with h | h
  · exact absurd h (by decide)
  · exact absurd h (by decide)

theorem ipv6Address_some (h : ipv6Address text = some address) :
    address.Valid ∧ (address.scope.isSome = true ↔ '%' ∈ text) ∧
      ∃ ip scope, address = .v6 ip scope := by
  unfold ipv6Address at h
  rw [Option.ite_none_left_eq_some] at h
  obtain ⟨hslash, h⟩ := h
  obtain ⟨⟨body, scope⟩, hsplit, h⟩ := Option.bind_eq_some_iff.mp h
  obtain ⟨ip, hip, rfl⟩ := Option.map_eq_some_iff.mp h
  unfold splitScopeId at hsplit
  split at hsplit
  · rename_i hpercent
    rw [Option.ite_none_left_eq_some] at hsplit
    obtain ⟨hscope, hsplit⟩ := hsplit
    cases hsplit
    rw [not_or] at hscope
    refine ⟨⟨ipv6Int_some hip, ?_⟩, by simpa [scope] using hpercent, _, _, rfl⟩
    rintro _ ⟨⟩
    refine ⟨hscope.1, hscope.2, fun hmem => hslash ?_⟩
    exact dropWhile_subset _ (mem_of_mem_tail hmem)
  · rename_i hpercent
    cases hsplit
    exact ⟨⟨ipv6Int_some hip, nofun⟩, by simpa [scope] using hpercent, _, _, rfl⟩

/-! ## Networks -/

/-- The networks that are read. -/
structure Network.Normal (network : Network) : Prop where
  valid : network.networkAddress.Valid
  prefixlen : network.prefixlen ≤ network.networkAddress.maxPrefixlen
  network : network.networkAddress.network network.prefixlen = network.networkAddress

theorem splitOn_slash {left right : Text} (hleft : '/' ∉ left) (hright : '/' ∉ right) :
    (left ++ '/' :: right).splitOn '/' = [left, right] := by
  rw [splitOn_append_cons_self_of_not_mem hleft, splitOn_eq_singleton hright]

theorem slash_notMem_decimal (n : ℕ) : '/' ∉ decimal n := fun h =>
  absurd (isDigit_of_mem_decimal h) (by decide)

variable {network : Network}

theorem Network.splitOn_text (h : network.networkAddress.Valid) :
    network.text.splitOn '/' = [network.networkAddress.text, decimal network.prefixlen] :=
  splitOn_slash (slash_notMem_text h) (slash_notMem_decimal _)

/-- The text of an address with a prefix is read as its network. -/
theorem ipNetwork_address {prefixlen : ℕ} (h : address.Valid)
    (hwithin : prefixlen ≤ address.maxPrefixlen) :
    ipNetwork (Network.mk address prefixlen).text = some ⟨address.network prefixlen, prefixlen⟩ := by
  have hsplit := Network.splitOn_text (show (Network.mk address prefixlen).networkAddress.Valid
    from h)
  cases address with
  | v4 ip =>
    have hv4 : ipv4Network (Network.mk (.v4 ip) prefixlen).text =
        some ⟨(v4 ip).network prefixlen, prefixlen⟩ := by
      unfold ipv4Network networkWith
      rw [hsplit]
      simp only [ipv4Address_text (show ip < 2 ^ 32 from h), ipv4Prefixlen,
        prefixFromPrefixString_decimal (show prefixlen ≤ 32 from hwithin)]
      rfl
    unfold ipNetwork
    rw [hv4]
    rfl
  | v6 ip scope =>
    have hv4 : ipv4Network (Network.mk (.v6 ip scope) prefixlen).text = none := by
      unfold ipv4Network networkWith
      rw [hsplit]
      simp only [ipv4Address_of_colon (colon_mem_text ip scope)]
      rfl
    have hv6 : ipv6Network (Network.mk (.v6 ip scope) prefixlen).text =
        some ⟨(v6 ip scope).network prefixlen, prefixlen⟩ := by
      unfold ipv6Network networkWith
      rw [hsplit]
      simp only [ipv6Address_text h, ipv6Prefixlen,
        prefixFromPrefixString_decimal (show prefixlen ≤ 128 from hwithin)]
      rfl
    unfold ipNetwork
    rw [hv4, hv6]
    rfl

/-- The text of a network is read back. -/
theorem ipNetwork_text (h : network.Normal) :
    ipNetwork network.text = some network := by
  have hread := ipNetwork_address h.valid h.prefixlen
  rw [h.network] at hread
  exact hread

theorem Address.network_normal (h : address.Valid) {prefixlen : ℕ}
    (hwithin : prefixlen ≤ address.maxPrefixlen) :
    (Network.mk (address.network prefixlen) prefixlen).Normal := by
  cases address with
  | v4 ip =>
    refine ⟨Nat.lt_of_le_of_lt Nat.and_le_left h, hwithin, ?_⟩
    simp only [network, Nat.and_assoc, Nat.and_self]
  | v6 ip scope =>
    by_cases hhost : ip &&& netmask 128 prefixlen = ip
    · have hsame : (v6 ip scope).network prefixlen = v6 ip scope := by
        simp [network, hhost]
      rw [hsame]
      exact ⟨h, hwithin, hsame⟩
    · have hmasked : (v6 ip scope).network prefixlen = v6 (ip &&& netmask 128 prefixlen) none := by
        simp [network, hhost]
      rw [hmasked]
      refine ⟨⟨Nat.lt_of_le_of_lt Nat.and_le_left h.1, nofun⟩, hwithin, ?_⟩
      simp [network, Nat.and_assoc]

/-- A full prefix keeps the address. -/
theorem Address.network_maxPrefixlen (h : address.Valid) :
    address.network address.maxPrefixlen = address := by
  cases address with
  | v4 ip =>
    have hmask : netmask 32 32 = 2 ^ 32 - 1 := by decide
    rw [maxPrefixlen, network, hmask, Nat.and_two_pow_sub_one_eq_mod,
      Nat.mod_eq_of_lt h]
  | v6 ip scope =>
    have hmask : netmask 128 128 = 2 ^ 128 - 1 := by decide
    rw [maxPrefixlen, network, hmask, Nat.and_two_pow_sub_one_eq_mod,
      Nat.mod_eq_of_lt h.1, if_neg (by simp)]

/-- The address part of an IPv6 network has bits below its prefix. -/
def hostBits (text : Text) : Bool :=
  match text.splitOn '/' with
  | [addr, mask] =>
    match ipv6Address addr, ipv6Prefixlen mask with
    | some (.v6 ip _), some prefixlen => ip &&& netmask 128 prefixlen ≠ ip
    | _, _ => false
  | _ => false

theorem mem_of_splitOn_pair {left right : Text} {c : Char} (h : text.splitOn '/' = [left, right])
    (hc : c ≠ '/') : c ∈ text ↔ c ∈ left ∨ c ∈ right := by
  have htext : ['/'].intercalate (text.splitOn '/') = text := intercalate_splitOn '/'
  rw [h] at htext
  rw [← htext]
  simp [intercalate_cons_cons, hc]

theorem eq_of_splitOn_singleton {left : Text} (h : text.splitOn '/' = [left]) :
    left = text := by
  have htext : ['/'].intercalate (text.splitOn '/') = text := intercalate_splitOn '/'
  rw [h, intercalate_singleton] at htext
  exact htext

/-- What is read as an IPv4 network. -/
theorem ipv4Network_some (h : ipv4Network text = some network) :
    network.Normal ∧ network.networkAddress.scope = none ∧ '%' ∉ text := by
  unfold ipv4Network networkWith at h
  split at h
  · rename_i addr hsplit
    obtain ⟨address, haddress, rfl⟩ := Option.map_eq_some_iff.mp h
    obtain ⟨hvalid, -, hpercent, ip, rfl⟩ := ipv4Address_some haddress
    rw [eq_of_splitOn_singleton hsplit] at hpercent
    exact ⟨network_normal hvalid (Nat.le_refl 32), rfl, hpercent⟩
  · rename_i addr mask hsplit
    obtain ⟨address, haddress, h⟩ := Option.bind_eq_some_iff.mp h
    obtain ⟨prefixlen, hmask, h⟩ := Option.bind_eq_some_iff.mp h
    cases h
    obtain ⟨hvalid, -, hpercent, ip, rfl⟩ := ipv4Address_some haddress
    obtain ⟨hle, hchars⟩ := ipv4Prefixlen_some hmask
    refine ⟨network_normal hvalid hle, rfl, fun hmem => ?_⟩
    rcases (mem_of_splitOn_pair hsplit (by decide)).mp hmem with hmem | hmem
    · exact hpercent hmem
    · rcases hchars _ hmem with h | h
      · exact absurd h (by decide)
      · exact absurd h (by decide)
  · cases h

/-- What is read as an IPv6 network: the scope stays when there are no host bits. -/
theorem ipv6Network_some (h : ipv6Network text = some network) :
    network.Normal ∧
      (network.networkAddress.scope.isSome = true ↔ '%' ∈ text ∧ hostBits text = false) := by
  unfold ipv6Network networkWith at h
  split at h
  · rename_i addr hsplit
    obtain ⟨address, haddress, rfl⟩ := Option.map_eq_some_iff.mp h
    obtain ⟨hvalid, hscope, ip, scope, rfl⟩ := ipv6Address_some haddress
    have hsame : (v6 ip scope).network 128 = .v6 ip scope :=
      network_maxPrefixlen hvalid
    refine ⟨network_normal hvalid (Nat.le_refl 128), ?_⟩
    dsimp only
    rw [hsame, hscope, eq_of_splitOn_singleton hsplit]
    unfold hostBits
    rw [hsplit]
    simp
  · rename_i addr mask hsplit
    obtain ⟨address, haddress, h⟩ := Option.bind_eq_some_iff.mp h
    obtain ⟨prefixlen, hmask, h⟩ := Option.bind_eq_some_iff.mp h
    cases h
    obtain ⟨hvalid, hscope, ip, scope, rfl⟩ := ipv6Address_some haddress
    obtain ⟨hle, hdigits⟩ := prefixFromPrefixString_some hmask
    refine ⟨network_normal hvalid hle, ?_⟩
    have hpercent : '%' ∈ text ↔ '%' ∈ addr := by
      rw [mem_of_splitOn_pair hsplit (by decide)]
      exact or_iff_left fun hmem => absurd (hdigits _ hmem) (by decide)
    unfold hostBits
    rw [hsplit, hpercent, ← hscope]
    simp only [haddress, hmask]
    by_cases hhost : ip &&& netmask 128 prefixlen = ip
    · simp [network, hhost]
    · simp [Address.network, hhost, Address.scope]
  · cases h

/-- What is read as a network. -/
theorem ipNetwork_some (h : ipNetwork text = some network) :
    network.Normal ∧
      (network.networkAddress.scope.isSome = true ↔ '%' ∈ text ∧ hostBits text = false) := by
  rcases orElse_eq_some.mp h with h | ⟨-, h⟩
  · obtain ⟨hnormal, hscope, hpercent⟩ := ipv4Network_some h
    refine ⟨hnormal, ?_⟩
    rw [hscope]
    exact ⟨nofun, fun hmem => absurd hmem.1 hpercent⟩
  · exact ipv6Network_some h

/-- What is read as an address. -/
theorem ipAddress_some (h : ipAddress text = some address) :
    address.Valid ∧ (address.scope.isSome = true ↔ '%' ∈ text) := by
  rcases orElse_eq_some.mp h with h | ⟨-, h⟩
  · obtain ⟨hvalid, hscope, hpercent, -⟩ := ipv4Address_some h
    rw [hscope]
    exact ⟨hvalid, nofun, fun hmem => absurd hmem hpercent⟩
  · obtain ⟨hvalid, hscope, -⟩ := ipv6Address_some h
    exact ⟨hvalid, hscope⟩

/-- The percent sign of the text of a network is that of its scope. -/
theorem Network.percent_mem_text (network : Network) :
    '%' ∈ network.text ↔ network.networkAddress.scope.isSome = true := by
  rw [← Address.percent_mem_text, Network.text, mem_append, mem_cons]
  refine or_iff_left fun h => ?_
  rcases h with h | h
  · exact absurd h (by decide)
  · exact absurd (isDigit_of_mem_decimal h) (by decide)

/-! ## Sizes -/

theorem length_intercalate (separator : Char) {texts : List Text} {k : ℕ}
    (h : ∀ text ∈ texts, text.length ≤ k) :
    ([separator].intercalate texts).length ≤ texts.length * (k + 1) := by
  induction texts with
  | nil => simp
  | cons text texts ih =>
    have hhead := h text (by simp)
    have htail := ih fun text htext => h text (by simp [htext])
    rw [length_cons, Nat.add_mul, Nat.one_mul]
    rcases texts with _ | ⟨next, texts⟩
    · rw [intercalate_singleton]
      omega
    · rw [intercalate_cons_cons, length_append, length_append,
        length_singleton]
      omega

theorem length_decimal {k : ℕ} (hk : 0 < k) (h : n < 10 ^ k) : (decimal n).length ≤ k :=
  (Nat.length_toDigits_le_iff (by decide) hk).mpr h

theorem length_hexadecimal (h : n < 65536) : (hexadecimal n).length ≤ 4 :=
  (Nat.length_toDigits_le_iff (by decide) (by decide)).mpr h

theorem length_ipv4Text (n : ℕ) : (ipv4Text n).length ≤ 16 := by
  have hoctets : ∀ text ∈ (octets n).map decimal, text.length ≤ 3 := by
    intro text htext
    obtain ⟨octet, hoctet, rfl⟩ := mem_map.mp htext
    refine length_decimal (by decide) ?_
    simp only [octets, mem_cons, not_mem_nil, or_false] at hoctet
    omega
  have hlength := length_intercalate '.' hoctets
  rw [length_map] at hlength
  exact hlength

theorem length_ipv6IntText (n : ℕ) : (ipv6IntText n).length ≤ 50 := by
  have hparts : (compressHextets ((hextets n).map hexadecimal)).length ≤ 10 := by
    rcases compressHextets_cases ((hextets n).map hexadecimal) with
      heq | ⟨high, low, zeros, heq, hpos, hcompressed⟩
    · rw [heq]
      simp [hextets]
    · have hall := congrArg List.length heq
      simp only [hextets, length_map, length_append, length_replicate,
        length_cons, length_nil] at hall
      rw [hcompressed]
      simp only [length_append, length_singleton]
      have hone : ∀ texts : List Text, (if texts = [] then [([] : Text)] else []).length ≤ 1 := by
        intro texts
        split
        · exact Nat.le_refl 1
        · exact Nat.zero_le 1
      have hhigh := hone high
      have hlow := hone low
      omega
  have htexts : ∀ text ∈ compressHextets ((hextets n).map hexadecimal), text.length ≤ 4 := by
    intro text htext
    rcases mem_compressHextets htext with rfl | htext
    · exact Nat.zero_le 4
    · obtain ⟨hextet, hhextet, rfl⟩ := mem_map.mp htext
      exact length_hexadecimal (hextets_lt hhextet)
  calc
    (ipv6IntText n).length
        ≤ (compressHextets ((hextets n).map hexadecimal)).length * (4 + 1) :=
      length_intercalate ':' htexts
    _ ≤ 10 * (4 + 1) := Nat.mul_le_mul_right _ hparts

/-- Without a scope the text of a network is short. -/
theorem Network.length_text (h : network.Normal)
    (hscope : network.networkAddress.scope = none) : network.text.length ≤ 64 := by
  obtain ⟨address, prefixlen⟩ := network
  have hwithin : (decimal prefixlen).length ≤ 3 := by
    refine length_decimal (by decide) (Nat.lt_of_le_of_lt h.prefixlen ?_)
    cases address with
    | v4 ip => exact (show 32 < 10 ^ 3 by decide)
    | v6 ip scope => exact (show 128 < 10 ^ 3 by decide)
  have haddress : address.text.length ≤ 58 := by
    cases address with
    | v4 ip =>
      have hlength := length_ipv4Text ip
      rw [Address.text]
      omega
    | v6 ip scope =>
      obtain rfl : scope = none := hscope
      rw [Address.text, ipv6Text]
      split
      · rename_i hmapped
        have hlength := length_ipv4Text (ip % 2 ^ 32)
        have hfront : (ipv6IntText 0xffff).length = 6 := by decide
        rw [hmapped, length_append, length_cons, hfront]
        omega
      · have hlength := length_ipv6IntText ip
        omega
  rw [Network.text, length_append, length_cons]
  dsimp only
  omega

end Preseed.Ipaddress
