import Preseed.Texts.Fields

/-!
# The managed network environment

How the settings file is written and read: `shell_assignment` quotes a value for the
shell, and `read_input_env` joins lines until a statement is complete and assigns its value.
A text is a list of bytes, shown as the characters with their numbers.
-/

namespace Preseed.ManagedNetwork

/-- A byte string. -/
abbrev Text := List Char

/-- `\s`. -/
def isSpace (c : Char) : Bool := c.toNat ∈ [9, 10, 11, 12, 13, 32]

/-- `s/^\s+|\s+\z//g`. -/
def trim (text : Text) : Text := (text.dropWhile isSpace).rdropWhile isSpace

/-- The text is empty or a comment, after blanks: `/\A\s*(?:#|\z)/`. -/
def isComment (text : Text) : Bool :=
  text.all isSpace || (text.dropWhile isSpace).head? = some '#'

/-- `s/\s+#.*\z//`. -/
def stripComment : Text → Text
  | [] => []
  | c :: rest =>
    let tail := rest.dropWhile isSpace
    if isSpace c ∧ tail.head? = some '#' ∧ '\n' ∉ tail then [] else c :: stripComment rest

/-! ### Values -/

/-- Why `parse_shell_value` dies. -/
inductive ShellError
  | unterminated
  | unsupported (near : Text)
  deriving DecidableEq

/-- The message, without the place that Perl adds. -/
def ShellError.message : ShellError → String
  | unterminated => "unterminated single-quoted value"
  | unsupported near => "unsupported shell value syntax near: " ++ String.ofList near

/-- The loop of `parse_shell_value` over the rest of a quoted value, byte by byte where the
source takes what is between two quotes at once. -/
def parseQuoted : (inside : Bool) → (out : Text) → Text → Except ShellError Text
  | true, _, [] => .error .unterminated
  | true, out, c :: rest =>
    if c = '\'' then parseQuoted false out rest else parseQuoted true (out ++ [c]) rest
  | false, out, [] => .ok out
  | false, out, '\'' :: rest => parseQuoted true out rest
  | false, out, '\\' :: '\'' :: rest => parseQuoted false (out ++ ['\'']) rest
  | false, out, c :: rest =>
    if isSpace c ∧ isComment rest then .ok out
    else .error (.unsupported ((c :: rest).take 16))

/-- `parse_shell_value`. -/
def parseShellValue (raw : Text) : Except ShellError Text :=
  let raw := trim raw
  if raw.head? = some '\'' then parseQuoted false [] raw
  else .ok (trim (stripComment raw))

/-! ### Statements -/

/-- The first byte of a key. -/
def isKeyStart (c : Char) : Bool := 'A' ≤ c ∧ c ≤ 'Z' ∨ c = '_'

/-- A byte of a key. -/
def isKeyByte (c : Char) : Bool := isKeyStart c ∨ '0' ≤ c ∧ c ≤ '9'

/-- `/\A([A-Z_][A-Z0-9_]*)=(.*)\z/s`. -/
def splitAssignment (text : Text) : Option (Text × Text) :=
  let key := text.takeWhile isKeyByte
  match text.dropWhile isKeyByte with
  | '=' :: value => if key.head?.any isKeyStart then some (key, value) else none
  | _ => none

/-- The keys of `%CFG`. -/
def supportedKeys : List Text :=
  ["MANAGED_NETWORK_TARGET_ROOT", "MANAGED_NETWORK_SYS_CLASS_NET", "MANAGED_NETWORK_STATE_ENV",
    "MANAGED_NETWORK_WAIT_SECONDS", "MANAGED_NETWORK_MODE", "MANAGED_NETWORK_LINK_TYPES",
    "MANAGED_NETWORK_INSTALLER_MAC", "MANAGED_NETWORK_ETHERNET_MAC",
    "MANAGED_NETWORK_ETHERNET_IFACE", "MANAGED_NETWORK_WIFI_MAC", "MANAGED_NETWORK_WIFI_IFACE",
    "MANAGED_NETWORK_HOSTNAME", "MANAGED_NETWORK_DOMAIN", "MANAGED_NETWORK_CLASSES_RAW",
    "MANAGED_NETWORK_SELECTED_CLASS_REFS", "MANAGED_NETWORK_HOST_VARIANT",
    "MANAGED_NETWORK_IPV4_ADDRESS", "MANAGED_NETWORK_IPV4_NETMASK", "MANAGED_NETWORK_IPV4_CIDR",
    "MANAGED_NETWORK_IPV4_GATEWAY", "MANAGED_NETWORK_IPV4_DNS", "MANAGED_NETWORK_DNS_MODE",
    "MANAGED_NETWORK_IPV6_ENABLED", "MANAGED_NETWORK_IPV6_ADDRESS",
    "MANAGED_NETWORK_IPV6_PREFIXLEN", "MANAGED_NETWORK_IPV6_GATEWAY", "MANAGED_NETWORK_IPV6_DNS",
    "MANAGED_NETWORK_WIFI_ESSID", "MANAGED_NETWORK_WIFI_ESSID_AGAIN", "MANAGED_NETWORK_WIFI_WPA",
    "MANAGED_NETWORK_WIFI_WEP", "MANAGED_NETWORK_WIFI_PSK_SECURITY",
    "MANAGED_NETWORK_WIFI_CIDR"].map String.toList

/-- `%CFG`. -/
abbrev Config := Text → Text

/-- `@statements` and `$current`. -/
structure Reading where
  statements : List Text
  current : Text

/-- The first loop of `read_input_env` at one line. -/
def readLine (path : String) (r : Reading) (line : Text) : Except String Reading :=
  if r.current = [] ∧ isComment line then .ok r
  else
    let current := if r.current = [] then line else r.current ++ '\n' :: line
    match splitAssignment current with
    | none => .error ("invalid assignment in " ++ path)
    | some (_, rawValue) =>
      match parseShellValue rawValue with
      | .ok _ =>
        .ok ⟨if current.all isSpace then r.statements else r.statements ++ [current], []⟩
      | .error .unterminated => .ok ⟨r.statements, current⟩
      | .error e => .error ("invalid shell value in " ++ path ++ ": " ++ e.message)

/-- `[\x00-\x08\x0b\x0c\x0e-\x1f\x7f]`. -/
def isRejected (c : Char) : Bool :=
  c.toNat < 32 ∧ c.toNat ∉ [9, 10, 13] ∨ c.toNat = 127

/-- The second loop of `read_input_env` at one statement. -/
def assignStatement (path : String) (cfg : Config) (statement : Text) : Except String Config :=
  let statement := trim statement
  if statement = [] ∨ statement.head? = some '#' then .ok cfg
  else
    match splitAssignment statement with
    | none => .error ("invalid assignment in " ++ path)
    | some (key, rawValue) =>
      if key ∉ supportedKeys then
        .error ("unsupported managed network key: " ++ String.ofList key)
      else
        match parseShellValue rawValue with
        | .error e =>
          .error ("invalid shell value for " ++ String.ofList key ++ ": " ++ e.message)
        | .ok value =>
          if value.any isRejected then .error ("control character in " ++ String.ofList key)
          else .ok (Function.update cfg key value)

/-- `read_input_env`, of the text that was read from `path`. An error is a call of `fatal`. -/
def readInputEnv (path : String) (cfg : Config) (raw : Text) : Except String Config := do
  if 65536 < raw.length then .error ("input env is too large: " ++ path)
  -- The lines of an empty text are none in the source; an empty line is skipped.
  let r ← (raw.splitOn '\n').foldlM (readLine path) ⟨[], []⟩
  if r.current ≠ [] then .error ("unterminated quoted assignment in " ++ path)
  r.statements.foldlM (assignStatement path) cfg

/-! ### Writing -/

/-- `s/'/'\\''/g`. -/
def escapeQuotes (value : Text) : Text :=
  value.flatMap fun c => if c = '\'' then ['\'', '\\', '\'', '\''] else [c]

/-- `shell_quote`. -/
def shellQuote (value : Text) : Text := '\'' :: escapeQuotes value ++ ['\'']

/-- `shell_assignment`. -/
def shellAssignment (key value : Text) : Except String Text :=
  if key.head?.any isKeyStart ∧ key.all isKeyByte then
    .ok (key ++ '=' :: shellQuote value ++ ['\n'])
  else .error ("invalid shell key: " ++ String.ofList key)

end Preseed.ManagedNetwork
