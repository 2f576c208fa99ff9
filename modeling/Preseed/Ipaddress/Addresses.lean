import Preseed.Texts.Fields

/-!
# Internet addresses and networks

The `ipaddress` module of Python 3.14 on texts: `ip_address`, `ip_network` with
`strict=False`, and their `str`. Texts are lists of characters.
-/

namespace Preseed.Ipaddress

abbrev Text := List Char

/-! ## Numerals -/

/-- The value of a decimal or hexadecimal digit. -/
def digitValue (c : Char) : ℕ :=
  if c.isDigit then c.toNat - '0'.toNat
  else if 'a' ≤ c ∧ c ≤ 'f' then c.toNat - 'a'.toNat + 10
  else if 'A' ≤ c ∧ c ≤ 'F' then c.toNat - 'A'.toNat + 10
  else 0

/-- `int(text, base)` of a text of digits. -/
def ofDigits (base : ℕ) (text : Text) : ℕ :=
  text.foldl (fun value c => base * value + digitValue c) 0

/-- `text.isascii() and text.isdigit()`. -/
def asciiDigits (text : Text) : Bool := text ≠ [] && text.all Char.isDigit

/-- `_HEX_DIGITS`. -/
def isHexDigit (c : Char) : Bool := c.isDigit || ('a' ≤ c && c ≤ 'f') || ('A' ≤ c && c ≤ 'F')

/-- `'%d'`. -/
def decimal (n : ℕ) : Text := Nat.toDigits 10 n

/-- `'%x'`. -/
def hexadecimal (n : ℕ) : Text := Nat.toDigits 16 n

/-- The integer of digits, most significant first. -/
def accumulate (base : ℕ) (digits : List ℕ) : ℕ :=
  digits.foldl (fun value digit => value * base + digit) 0

/-! ## IPv4 -/

/-- `_parse_octet`. -/
def parseOctet (text : Text) : Option ℕ :=
  if asciiDigits text = false then none
  else if 3 < text.length then none
  else if text ≠ ['0'] ∧ text.head? = some '0' then none
  else if 255 < ofDigits 10 text then none
  else some (ofDigits 10 text)

/-- `_BaseV4._ip_int_from_string`. -/
def ipv4Int (text : Text) : Option ℕ :=
  let octets := text.splitOn '.'
  if octets.length ≠ 4 then none
  else (octets.mapM parseOctet).map (accumulate 256)

/-- `ip_int.to_bytes(4, 'big')`. -/
def octets (n : ℕ) : List ℕ := [n / 16777216 % 256, n / 65536 % 256, n / 256 % 256, n % 256]

/-- `_BaseV4._string_from_ip_int`. -/
def ipv4Text (n : ℕ) : Text := ['.'].intercalate ((octets n).map decimal)

/-! ## IPv6 -/

/-- `_parse_hextet`. -/
def parseHextet (text : Text) : Option ℕ :=
  if text = [] ∨ text.all isHexDigit = false ∨ 4 < text.length then none
  else some (ofDigits 16 text)

/-- An IPv4 suffix is two hextets. -/
def ipv4Suffix (parts : List Text) : Option (List Text) :=
  let last := parts.getLast?.getD []
  if '.' ∈ last then
    (ipv4Int last).map fun n =>
      parts.dropLast ++ [hexadecimal (n / 65536 % 65536), hexadecimal (n % 65536)]
  else some parts

/-- The first `high` parts, `skipped` zeros and the last `low` parts. -/
def hextetsInt (parts : List Text) (high low skipped : ℕ) : Option ℕ := do
  let above ← (parts.take high).mapM parseHextet
  let below ← (parts.drop (parts.length - low)).mapM parseHextet
  some (accumulate 65536 (above ++ List.replicate skipped 0 ++ below))

/-- The parts of an address, after its IPv4 suffix. -/
def partsInt (parts : List Text) : Option ℕ :=
  -- `::` is an empty part between the endpoints
  let inner := parts.tail.dropLast
  let first := parts.head?.getD []
  let last := parts.getLast?.getD []
  if 9 < parts.length ∨ 1 < inner.count [] then none
  else if inner.count [] = 1 then
    let skip := inner.idxOf [] + 1
    let high := if first = [] then skip - 1 else skip
    let low := if last = [] then parts.length - skip - 2 else parts.length - skip - 1
    if first = [] ∧ high ≠ 0 ∨ last = [] ∧ low ≠ 0 then none
    else if 8 < high + low + 1 then none
    else hextetsInt parts high low (8 - (high + low))
  else if parts.length ≠ 8 ∨ first = [] ∨ last = [] then none
  else hextetsInt parts 8 0 0

/-- `_BaseV6._ip_int_from_string`. -/
def ipv6Int (text : Text) : Option ℕ :=
  let parts := text.splitOn ':'
  if parts.length < 3 then none else (ipv4Suffix parts).bind partsInt

/-- The longest and the current run of zeros. -/
structure Runs where
  bestStart : ℕ
  bestLength : ℕ
  start : ℕ
  length : ℕ

/-- The loop of `_compress_hextets`. -/
def scanRuns (runs : Runs) (index : ℕ) : List Text → Runs
  | [] => runs
  | hextet :: rest =>
    if hextet = ['0'] then
      let start := if runs.length = 0 then index else runs.start
      let length := runs.length + 1
      if runs.bestLength < length then scanRuns ⟨start, length, start, length⟩ (index + 1) rest
      else scanRuns ⟨runs.bestStart, runs.bestLength, start, length⟩ (index + 1) rest
    else scanRuns ⟨runs.bestStart, runs.bestLength, 0, 0⟩ (index + 1) rest

/-- `_compress_hextets`. -/
def compressHextets (hextets : List Text) : List Text :=
  let runs := scanRuns ⟨0, 0, 0, 0⟩ 0 hextets
  if 1 < runs.bestLength then
    let stop := runs.bestStart + runs.bestLength
    let hextets := if stop = hextets.length then hextets ++ [[]] else hextets
    let hextets := hextets.take runs.bestStart ++ [[]] ++ hextets.drop stop
    if runs.bestStart = 0 then [] :: hextets else hextets
  else hextets

/-- The eight groups of `'%032x'`. -/
def hextets (n : ℕ) : List ℕ :=
  [n / 2 ^ 112 % 65536, n / 2 ^ 96 % 65536, n / 2 ^ 80 % 65536, n / 2 ^ 64 % 65536,
    n / 2 ^ 48 % 65536, n / 2 ^ 32 % 65536, n / 2 ^ 16 % 65536, n % 65536]

/-- `_BaseV6._string_from_ip_int`. -/
def ipv6IntText (n : ℕ) : Text :=
  [':'].intercalate (compressHextets ((hextets n).map hexadecimal))

/-- `IPv6Address.__str__` without a scope: an IPv4-mapped address has its dotted form. -/
def ipv6Text (n : ℕ) : Text :=
  if n / 2 ^ 32 = 0xffff then ipv6IntText (n / 2 ^ 32) ++ ':' :: ipv4Text (n % 2 ^ 32)
  else ipv6IntText n

/-- `_split_scope_id`. -/
def splitScopeId (text : Text) : Option (Text × Option Text) :=
  if '%' ∈ text then
    let scope := (text.dropWhile (· ≠ '%')).tail
    if scope = [] ∨ '%' ∈ scope then none else some (text.takeWhile (· ≠ '%'), some scope)
  else some (text, none)

/-! ## Addresses and networks -/

inductive Address
  | v4 (ip : ℕ)
  | v6 (ip : ℕ) (scope : Option Text)
  deriving DecidableEq

/-- `max_prefixlen`. -/
def Address.maxPrefixlen : Address → ℕ
  | v4 _ => 32
  | v6 _ _ => 128

/-- `str(address)`. -/
def Address.text : Address → Text
  | v4 ip => ipv4Text ip
  | v6 ip none => ipv6Text ip
  | v6 ip (some scope) => ipv6Text ip ++ '%' :: scope

/-- `IPv4Address(text)`. -/
def ipv4Address (text : Text) : Option Address :=
  if '/' ∈ text then none else (ipv4Int text).map .v4

/-- `IPv6Address(text)`. -/
def ipv6Address (text : Text) : Option Address :=
  if '/' ∈ text then none
  else (splitScopeId text).bind fun (address, scope) =>
    (ipv6Int address).map fun ip => .v6 ip scope

/-- `ip_address`. -/
def ipAddress (text : Text) : Option Address := ipv4Address text <|> ipv6Address text

/-- `_prefix_from_prefix_string`. -/
def prefixFromPrefixString (maxPrefixlen : ℕ) (text : Text) : Option ℕ :=
  if asciiDigits text = true ∧ ofDigits 10 text ≤ maxPrefixlen then some (ofDigits 10 text)
  else none

/-- `_count_righthand_zero_bits`. -/
def countRighthandZeroBits : ℕ → ℕ → ℕ
  | 0, _ => 0
  | bits + 1, number =>
    if number % 2 = 1 then 0 else countRighthandZeroBits bits (number / 2) + 1

/-- `_prefix_from_ip_int`. -/
def prefixFromIpInt (ip : ℕ) : Option ℕ :=
  let trailingZeroes := countRighthandZeroBits 32 ip
  let prefixlen := 32 - trailingZeroes
  if ip >>> trailingZeroes = 2 ^ prefixlen - 1 then some prefixlen else none

/-- `_prefix_from_ip_string`: a netmask or a hostmask. -/
def prefixFromIpString (text : Text) : Option ℕ :=
  (ipv4Int text).bind fun ip => prefixFromIpInt ip <|> prefixFromIpInt (ip ^^^ (2 ^ 32 - 1))

/-- `_make_netmask` of an IPv4 and of an IPv6 network. -/
def ipv4Prefixlen (text : Text) : Option ℕ :=
  prefixFromPrefixString 32 text <|> prefixFromIpString text

def ipv6Prefixlen (text : Text) : Option ℕ := prefixFromPrefixString 128 text

/-- `_ip_int_from_prefix`. -/
def netmask (maxPrefixlen prefixlen : ℕ) : ℕ :=
  (2 ^ maxPrefixlen - 1) ^^^ ((2 ^ maxPrefixlen - 1) >>> prefixlen)

/-- The network address: a scope goes with its host bits. -/
def Address.network (prefixlen : ℕ) : Address → Address
  | v4 ip => v4 (ip &&& netmask 32 prefixlen)
  | v6 ip scope =>
    if ip &&& netmask 128 prefixlen ≠ ip then v6 (ip &&& netmask 128 prefixlen) none
    else v6 ip scope

structure Network where
  networkAddress : Address
  prefixlen : ℕ
  deriving DecidableEq

/-- `IPv4Network(text, False)` and `IPv6Network(text, False)`. -/
def networkWith (address : Text → Option Address) (makePrefixlen : Text → Option ℕ)
    (maxPrefixlen : ℕ) (text : Text) : Option Network :=
  match text.splitOn '/' with
  | [addr] => (address addr).map fun a => ⟨a.network maxPrefixlen, maxPrefixlen⟩
  | [addr, mask] => do
    let a ← address addr
    let prefixlen ← makePrefixlen mask
    some ⟨a.network prefixlen, prefixlen⟩
  | _ => none

def ipv4Network : Text → Option Network := networkWith ipv4Address ipv4Prefixlen 32

def ipv6Network : Text → Option Network := networkWith ipv6Address ipv6Prefixlen 128

/-- `ip_network`. -/
def ipNetwork (text : Text) : Option Network := ipv4Network text <|> ipv6Network text

/-- `str(network)`. -/
def Network.text (network : Network) : Text :=
  network.networkAddress.text ++ '/' :: decimal network.prefixlen

end Preseed.Ipaddress
