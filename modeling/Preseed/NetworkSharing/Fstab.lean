import Preseed.DesktopFirewall.Rules
import Preseed.ThemeArchive.Names

/-!
# The managed block of fstab

What `network-sharing.py` does to the text of `/etc/fstab`: the managed block is taken
out, the destinations of the other records are checked, and the new block is appended
and formatted with them. Texts are lists of characters.
-/

namespace Preseed.NetworkSharing

open Ipaddress (Text asciiDigits ofDigits ipv4Int)
open DesktopFirewall (isspace)
open ThemeArchive (normpath)

/-! ## Strings of Python -/

/-- Where `str.splitlines` ends a line; `\r\n` is one end. -/
def isLineEnd (c : Char) : Bool :=
  [0x0a, 0x0b, 0x0c, 0x0d, 0x1c, 0x1d, 0x1e, 0x85, 0x2028, 0x2029].contains c.toNat

/-- `text.splitlines()`, in a line that has begun with `line`. -/
def splitlinesFrom : Text → Text → List Text
  | line, [] => if line = [] then [] else [line]
  | line, '\r' :: '\n' :: rest => line :: splitlinesFrom [] rest
  | line, c :: rest =>
    if isLineEnd c then line :: splitlinesFrom [] rest else splitlinesFrom (line ++ [c]) rest

/-- `text.splitlines()`. -/
def splitlines (text : Text) : List Text := splitlinesFrom [] text

/-- `text.split(maxsplit=n)` at runs of separators: at most `n` words, and what remains. -/
def split (separator : Char → Bool) : ℕ → Text → List Text
  | 0, text =>
    match text.dropWhile separator with
    | [] => []
    | c :: rest => [c :: rest]
  | n + 1, text =>
    match text.dropWhile separator with
    | [] => []
    | c :: rest =>
      (c :: rest).takeWhile (!separator ·) ::
        split separator n ((c :: rest).dropWhile (!separator ·))

/-- `text.split()`: no text has more words than characters. -/
def words (text : Text) : List Text := split isspace text.length text

/-- `text.strip()` is not empty. -/
def visible (text : Text) : Bool := !text.all isspace

/-- `line.lstrip().startswith('#')`. -/
def isComment (line : Text) : Bool := (line.dropWhile isspace).head? = some '#'

/-- `text.rstrip('\n')`. -/
def stripNewlines (text : Text) : Text := text.rdropWhile (· = '\n')

/-- `text.ljust(width)`. -/
def ljust (width : ℕ) (text : Text) : Text :=
  text ++ List.replicate (width - text.length) ' '

/-- `text.count(marker)`, of a marker that cannot overlap itself. -/
def count (marker : Text) : Text → ℕ
  | [] => 0
  | c :: rest => (if marker.isPrefixOf (c :: rest) then 1 else 0) + count marker rest

/-- `text.index(marker)`. -/
def index (marker : Text) : Text → ℕ
  | [] => 0
  | c :: rest => if marker.isPrefixOf (c :: rest) then 0 else index marker rest + 1

/-! ## The managed block -/

/-- `BEGIN`. -/
def beginMarker : Text := "# BEGIN managed-network-sharing".toList

/-- `END`. -/
def endMarker : Text := "# END managed-network-sharing".toList

/-- `without_managed_block`. -/
def withoutManagedBlock (text : Text) : Except String Text :=
  if count beginMarker text = 0 ∧ count endMarker text = 0 then .ok text
  else if count beginMarker text ≠ 1 ∨ count endMarker text ≠ 1 then
    .error "duplicate or incomplete managed configuration block"
  else
    let start := index beginMarker text
    let last := index endMarker text
    let finish := last + endMarker.length
    if last ≤ start ∨ (start ≠ 0 ∧ text[start - 1]? ≠ some '\n') ∨
        text[start + beginMarker.length]? ≠ some '\n' ∨
        (last ≠ 0 ∧ text[last - 1]? ≠ some '\n') ∨
        (finish < text.length ∧ text[finish]? ≠ some '\n') then
      .error "malformed managed configuration markers"
    else
      let finish := if finish < text.length then finish + 1 else finish
      .ok (text.take start ++ text.drop finish)

/-- `append_block`. -/
def appendBlock (text block : Text) : Text :=
  stripNewlines text ++ (if visible text then ['\n', '\n'] else []) ++ block

/-! ## The format -/

/-- The widths of the columns of each section; a column that has no entry has width 0. -/
abbrev Widths := ℕ → ℕ → ℕ

/-- The widths after a record of a section. -/
def Widths.record (widths : Widths) (current : ℕ) (fields : List Text) : Widths :=
  fun group field =>
    if group = current ∧ field < 5 then max (widths group field) (fields.getD field []).length
    else widths group field

/-- The fields of a record are not accepted. -/
def invalidFields (fields : List Text) : Bool :=
  fields.length < 6 || (fields.length = 7 && (fields.getD 6 []).head? ≠ some '#')

/-- The first loop of `format_fstab`. -/
def measure : ℕ → Widths → List Text → Except String Widths
  | _, widths, [] => .ok widths
  | group, widths, line :: lines =>
    if isComment line then measure (group + 1) widths lines
    else if invalidFields (split isspace 6 line) then .error "invalid six-field fstab record"
    else measure group (widths.record group (split isspace 6 line)) lines

/-- A record of `format_fstab`. -/
def formatRecord (widths : ℕ → ℕ) (fields : List Text) : Text :=
  [' ', ' '].intercalate ((List.range 5).map fun i => ljust (widths i) (fields.getD i [])) ++
    ' ' :: ' ' :: fields.getD 5 [] ++
    (if fields.length = 7 then ' ' :: ' ' :: fields.getD 6 [] else [])

/-- The second loop of `format_fstab`. -/
def layout (widths : Widths) : ℕ → List Text → List Text
  | _, [] => []
  | group, line :: lines =>
    if isComment line then line :: layout widths (group + 1) lines
    else formatRecord (widths group) (split isspace 6 line) :: layout widths group lines

/-- `'\n'.join(lines) + ('\n' if lines else '')`. -/
def unlines (lines : List Text) : Text :=
  ['\n'].intercalate lines ++ (if lines = [] then [] else ['\n'])

/-- `format_fstab`. -/
def formatFstab (text : Text) : Except String Text := do
  let lines := (splitlines text).filter visible
  let widths ← measure 0 (fun _ _ => 0) lines
  return unlines (layout widths 0 lines)

/-! ## Mount destinations -/

/-- A digit of `[0-7]`. -/
def isOctal (c : Char) : Bool := '0' ≤ c && c ≤ '7'

/-- The octal escapes of a field, decoded. -/
def decodeEscapes : Text → Text
  | '\\' :: a :: b :: c :: rest =>
    if isOctal a && isOctal b && isOctal c then
      Char.ofNat (ofDigits 8 [a, b, c]) :: decodeEscapes rest
    else '\\' :: decodeEscapes (a :: b :: c :: rest)
  | c :: rest => c :: decodeEscapes rest
  | [] => []

/-- The mount destination of a field, as `configure` compares it. -/
def canonical (field : Text) : Text :=
  let destination := decodeEscapes field
  if destination.head? = some '/' then normpath ('/' :: destination.dropWhile (· = '/'))
  else destination

/-- A line of the file has one of the destinations. -/
def owns (destinations : List Text) (line : Text) : Bool :=
  match words line with
  | _ :: field :: _ => !isComment line && destinations.contains (canonical field)
  | _ => false

end Preseed.NetworkSharing
