import Preseed.Ipaddress.Addresses

/-!
# Rules of the desktop firewall

Their validation, the fragment that is rendered for them and the state file that keeps them.
-/

namespace Preseed.DesktopFirewall

open Ipaddress (Text decimal)

inductive Direction
  | incoming | outgoing
  deriving DecidableEq

inductive Verdict
  | allow | block
  deriving DecidableEq

inductive Protocol
  | tcp | udp
  deriving DecidableEq

inductive Scope
  | any | lan | ip
  deriving DecidableEq

def Direction.text : Direction → Text
  | incoming => "incoming".toList
  | outgoing => "outgoing".toList

def Verdict.text : Verdict → Text
  | allow => "allow".toList
  | block => "block".toList

def Protocol.text : Protocol → Text
  | tcp => "tcp".toList
  | udp => "udp".toList

def Scope.text : Scope → Text
  | any => "any".toList
  | lan => "lan".toList
  | ip => "ip".toList

/-- What `validate_rule_fields` returns. -/
structure Fields where
  direction : Direction
  verdict : Verdict
  protocol : Protocol
  port : ℕ
  scope : Scope
  cidr : Text
  deriving DecidableEq

structure Rule extends Fields where
  ruleId : Text
  deriving DecidableEq

/-! ## Validation -/

/-- A function that may raise a `FirewallError`, with its message. -/
abbrev Checked := Except String

def require (condition : Prop) [Decidable condition] (message : String) : Checked Unit :=
  if condition then .ok () else .error message

/-- The member of a set that a text names. -/
def oneOf {α : Type} (members : List α) (text : α → Text) (value : Text) (message : String) :
    Checked α :=
  (members.find? fun member => text member = value).elim (.error message) .ok

/-- The arguments of `validate_rule_fields`; the port is `str(port)`. -/
structure Arguments where
  direction : Text
  verdict : Text
  protocol : Text
  port : Text
  scope : Text
  cidr : Text
  deriving DecidableEq

/-- `validate_port`. -/
def validatePort (text : Text) : Checked ℕ := do
  require (Ipaddress.asciiDigits text = true)
    "firewall port must be an integer from 1 through 65535"
  let port := Ipaddress.ofDigits 10 text
  require (1 ≤ port ∧ port ≤ 65535) "firewall port must be an integer from 1 through 65535"
  return port

/-- The code points that `str.isdigit` takes: the first and the last of each range. -/
def digitRanges : List (ℕ × ℕ) :=
  [(0x30, 0x39), (0xb2, 0xb3), (0xb9, 0xb9), (0x660, 0x669), (0x6f0, 0x6f9), (0x7c0, 0x7c9),
    (0x966, 0x96f), (0x9e6, 0x9ef), (0xa66, 0xa6f), (0xae6, 0xaef), (0xb66, 0xb6f),
    (0xbe6, 0xbef), (0xc66, 0xc6f), (0xce6, 0xcef), (0xd66, 0xd6f), (0xde6, 0xdef),
    (0xe50, 0xe59), (0xed0, 0xed9), (0xf20, 0xf29), (0x1040, 0x1049), (0x1090, 0x1099),
    (0x1369, 0x1371), (0x17e0, 0x17e9), (0x1810, 0x1819), (0x1946, 0x194f), (0x19d0, 0x19da),
    (0x1a80, 0x1a89), (0x1a90, 0x1a99), (0x1b50, 0x1b59), (0x1bb0, 0x1bb9), (0x1c40, 0x1c49),
    (0x1c50, 0x1c59), (0x2070, 0x2070), (0x2074, 0x2079), (0x2080, 0x2089), (0x2460, 0x2468),
    (0x2474, 0x247c), (0x2488, 0x2490), (0x24ea, 0x24ea), (0x24f5, 0x24fd), (0x24ff, 0x24ff),
    (0x2776, 0x277e), (0x2780, 0x2788), (0x278a, 0x2792), (0xa620, 0xa629), (0xa8d0, 0xa8d9),
    (0xa900, 0xa909), (0xa9d0, 0xa9d9), (0xa9f0, 0xa9f9), (0xaa50, 0xaa59), (0xabf0, 0xabf9),
    (0xff10, 0xff19), (0x104a0, 0x104a9), (0x10a40, 0x10a43), (0x10d30, 0x10d39),
    (0x10d40, 0x10d49), (0x10e60, 0x10e68), (0x11052, 0x1105a), (0x11066, 0x1106f),
    (0x110f0, 0x110f9), (0x11136, 0x1113f), (0x111d0, 0x111d9), (0x112f0, 0x112f9),
    (0x11450, 0x11459), (0x114d0, 0x114d9), (0x11650, 0x11659), (0x116c0, 0x116c9),
    (0x116d0, 0x116e3), (0x11730, 0x11739), (0x118e0, 0x118e9), (0x11950, 0x11959),
    (0x11bf0, 0x11bf9), (0x11c50, 0x11c59), (0x11d50, 0x11d59), (0x11da0, 0x11da9),
    (0x11f50, 0x11f59), (0x16a60, 0x16a69), (0x16ac0, 0x16ac9), (0x16b50, 0x16b59),
    (0x1ccf0, 0x1ccf9), (0x1d7ce, 0x1d7ff), (0x1e140, 0x1e149), (0x1e2f0, 0x1e2f9),
    (0x1e4f0, 0x1e4f9), (0x1e5f1, 0x1e5fa), (0x1e950, 0x1e959), (0x1f100, 0x1f10a),
    (0x1fbf0, 0x1fbf9)]

/-- `str.isdigit` of a character. -/
def isdigit (c : Char) : Bool :=
  digitRanges.any fun (first, last) => first ≤ c.toNat && c.toNat ≤ last

/-- `validate_rule_id`. -/
def validateRuleId (value : Text) : Checked Text := do
  require (value.length = 9 ∧ "rule-".toList <+: value ∧ (value.drop 5).all isdigit = true)
    ("invalid managed firewall rule identifier: " ++
      if value = [] then "unset" else String.ofList value)
  return value

/-- `normalize_cidr`. -/
def normalizeCidr (value : Text) : Checked Text := do
  require (value.length ≤ 64) "CIDR exceeds 64 characters"
  let withPrefix :=
    if '/' ∈ value then some value
    else (Ipaddress.ipAddress value).map fun address =>
      (Ipaddress.Network.mk address address.maxPrefixlen).text
  match withPrefix.bind Ipaddress.ipNetwork with
  | some network => return network.text
  | none => throw "invalid IPv4 or IPv6 firewall CIDR"

/-- `validate_rule_fields`. -/
def validateRuleFields (args : Arguments) : Checked Fields := do
  let direction ← oneOf [.incoming, .outgoing] Direction.text args.direction
    "invalid firewall direction"
  let verdict ← oneOf [.allow, .block] Verdict.text args.verdict "invalid firewall verdict"
  let protocol ← oneOf [.tcp, .udp] Protocol.text args.protocol "invalid firewall protocol"
  let port ← validatePort args.port
  let scope ← oneOf [.any, .lan, .ip] Scope.text args.scope "invalid firewall scope"
  match scope with
  | .ip =>
    let cidr ← normalizeCidr args.cidr
    return ⟨direction, verdict, protocol, port, scope, cidr⟩
  | _ =>
    require (args.cidr = ['-'])
      (String.ofList scope.text ++ " firewall scope cannot include a CIDR")
    return ⟨direction, verdict, protocol, port, scope, args.cidr⟩

/-- The rule of an identifier and an argument vector. -/
def acceptRule (ruleId : Text) (args : Arguments) : Checked Rule := do
  let ruleId ← validateRuleId ruleId
  let fields ← validateRuleFields args
  return ⟨fields, ruleId⟩

/-! ## The fragment -/

/-- `LAN_IPV4` and `LAN_IPV6`. -/
def lanIpv4 : Text :=
  "{ 10.0.0.0/8, 100.64.0.0/10, 169.254.0.0/16, 172.16.0.0/12, 192.168.0.0/16 }".toList

def lanIpv6 : Text := "{ fc00::/7, fe80::/10 }".toList

def Rule.chain (rule : Rule) : Text :=
  match rule.direction with
  | .incoming => "local_input".toList
  | .outgoing => "local_output".toList

def Rule.addressDirection (rule : Rule) : Text :=
  match rule.direction with
  | .incoming => "saddr".toList
  | .outgoing => "daddr".toList

def Rule.statement (rule : Rule) : Text :=
  match rule.verdict with
  | .allow => "accept".toList
  | .block => "drop".toList

def Rule.family (rule : Rule) : Text := if ':' ∈ rule.cidr then "ip6".toList else "ip".toList

/-- What every command starts with. -/
def addRule : Text := "add rule inet labwc_filter ".toList

def Rule.suffix (rule : Rule) : Text :=
  rule.protocol.text ++ " dport ".toList ++ decimal rule.port ++ " counter ".toList ++
    rule.statement ++ " comment \"firewall-security ".toList ++ rule.ruleId ++ "\"".toList

/-- The line of a rule that matches addresses of a family. -/
def Rule.addressLine (rule : Rule) (family addresses : Text) : Text :=
  addRule ++ rule.chain ++ [' '] ++ family ++ [' '] ++ rule.addressDirection ++ [' '] ++
    addresses ++ [' '] ++ rule.suffix

/-- The lines of a rule. -/
def Rule.lines (rule : Rule) : List Text :=
  match rule.scope with
  | .any => [addRule ++ rule.chain ++ [' '] ++ rule.suffix]
  | .lan => [rule.addressLine "ip".toList lanIpv4, rule.addressLine "ip6".toList lanIpv6]
  | .ip => [rule.addressLine rule.family rule.cidr]

def fragmentHeader : List Text :=
  ["# Managed by labwc-firewall-action-root.".toList,
    "# Persistent Computer Management firewall rules.".toList]

def fragmentFooter (rules : List Rule) : List Text :=
  if rules = [] then ["# No Computer Management firewall rules are configured.".toList] else []

/-- `render_fragment`. -/
def renderFragment (rules : List Rule) : Text :=
  ['\n'].intercalate (fragmentHeader ++ rules.flatMap Rule.lines ++ fragmentFooter rules) ++ ['\n']

/-! ## The state file -/

def maxRules : ℕ := 128

def maxStateBytes : ℕ := 65536

/-- The columns of a rule, and its line of the state file. -/
def Rule.columns (rule : Rule) : List Text :=
  [rule.ruleId, rule.direction.text, rule.verdict.text, rule.protocol.text, decimal rule.port,
    rule.scope.text, rule.cidr]

def Rule.row (rule : Rule) : Text := ['\t'].intercalate rule.columns

def stateHeader : List Text :=
  ["# Managed by labwc-firewall-action-root.".toList,
    "# id\tdirection\tverdict\tprotocol\tport\tscope\tcidr".toList]

/-- `serialize_state`. -/
def serializeState (rules : List Rule) : Text :=
  ['\n'].intercalate (stateHeader ++ rules.map Rule.row) ++ ['\n']

/-- The lines of a file that is opened with `newline=""`, with their ends. -/
def fileLines : Text → List Text
  | [] => []
  | '\r' :: '\n' :: rest => ['\r', '\n'] :: fileLines rest
  | c :: rest =>
    if c = '\n' ∨ c = '\r' then [c] :: fileLines rest
    else
      match fileLines rest with
      | [] => [[c]]
      | line :: lines => (c :: line) :: lines

/-- `line.rstrip("\r\n")`. -/
def stripEnd (line : Text) : Text :=
  (line.reverse.dropWhile fun c => c = '\r' || c = '\n').reverse

/-- `str.isspace` of a character. -/
def isspace (c : Char) : Bool :=
  (9 ≤ c.toNat && c.toNat ≤ 13) || (28 ≤ c.toNat && c.toNat ≤ 32) ||
    (0x2000 ≤ c.toNat && c.toNat ≤ 0x200a) ||
    [0x85, 0xa0, 0x1680, 0x2028, 0x2029, 0x202f, 0x205f, 0x3000].contains c.toNat

/-- The rule of a row. -/
def readRow (row : ℕ) (line : Text) : Checked Rule :=
  match line.splitOn '\t' with
  | [ruleId, direction, verdict, protocol, port, scope, cidr] =>
    match acceptRule ruleId ⟨direction, verdict, protocol, port, scope, cidr⟩ with
    | .ok rule => .ok rule
    | .error message => .error s!"invalid firewall state row {row}: {message}"
  | _ => .error s!"invalid firewall state row {row}: expected 7 fields"

/-- The loop of `load_state`, from a row on. -/
def readRows (limit : ℕ) : ℕ → List Rule → List Text → Checked (List Rule)
  | _, rules, [] => .ok rules
  | row, rules, raw :: rest =>
    let line := stripEnd raw
    if line = [] ∨ (line.dropWhile isspace).head? = some '#' then
      readRows limit (row + 1) rules rest
    else do
      let rule ← readRow row line
      require (rule.ruleId ∉ rules.map Rule.ruleId) s!"duplicate firewall rule id at row {row}"
      require ((rules ++ [rule]).length ≤ limit)
        s!"firewall state exceeds {limit} managed rules"
      readRows limit (row + 1) (rules ++ [rule]) rest

/-- `load_state` of a file with this text. -/
def loadState (text : Text) (limit : ℕ) : Checked (List Rule) := do
  require ((text.map Char.utf8Size).sum ≤ maxStateBytes)
    s!"firewall state exceeds {maxStateBytes} bytes"
  readRows limit 1 [] (fileLines text)

end Preseed.DesktopFirewall
