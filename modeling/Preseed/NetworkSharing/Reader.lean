import Preseed.NetworkSharing.Settings

/-!
# Readers of fstab

How `/etc/fstab` is read: lines end at a newline, blanks and tabs separate the fields, and
a line whose first visible character is `#` is a comment. With it, what an update of the
file has to keep.
-/

namespace Preseed.NetworkSharing

open Ipaddress (Text)
open DesktopFirewall (isspace)

/-- A separator of fields. -/
def isBlank (c : Char) : Bool := c = ' ' || c = '\t'

/-- What a line of the file says. -/
inductive Entry
  | comment (line : Text)
  | record (fields : List Text)
  deriving DecidableEq

/-- The entry of a line, if it has one. -/
def readLine (line : Text) : Option Entry :=
  match line.dropWhile isBlank with
  | [] => none
  | '#' :: _ => some (.comment line)
  | _ => some (.record ((split isBlank 6 line).take 6))

/-- The entries of some lines. -/
def entriesOf (lines : List Text) : List Entry := lines.filterMap readLine

/-- The fields of the records among some entries. -/
def records (entries : List Entry) : List (List Text) :=
  entries.filterMap fun
    | .record fields => some fields
    | .comment _ => none

/-- The comment lines among some entries. -/
def comments (entries : List Entry) : List Text :=
  entries.filterMap fun
    | .comment line => some line
    | .record _ => none

/-- The lines of a file. -/
def fileLines (text : Text) : List Text := text.splitOn '\n'

/-- The lines outside the managed block. -/
def outside (lines : List Text) : List Text :=
  lines.takeWhile (· ≠ beginMarker) ++
    ((lines.dropWhile (· ≠ beginMarker)).dropWhile (· ≠ endMarker)).tail

/-- The entries outside the managed block. -/
def foreign (text : Text) : List Entry := entriesOf (outside (fileLines text))

/-- A line with a record of six fields, and perhaps a comment at its end. -/
def validRecord (line : Text) : Bool := !invalidFields (split isBlank 6 line)

/-- Every line that has a record has a valid one. -/
def ValidRecords (text : Text) : Prop :=
  ∀ line ∈ fileLines text, ∀ fields, readLine line = some (.record fields) → validRecord line

/-- The mount destination of a record. -/
def mountDestination (fields : List Text) : Text := canonical (fields.getD 1 [])

/-- The records outside the managed block are the same, and no comment is lost. -/
def Preserves (text result : Text) : Prop :=
  records (foreign result) = records (foreign text) ∧
    ∀ comment ∈ comments (foreign text), comment ∈ comments (foreign result)

/-- No two records have the destination of a managed one. -/
def Exclusive (s : Settings) (text : Text) : Prop :=
  ∀ entries, fstabEntries s.values = .ok entries → ∀ entry ∈ entries,
    ((records (entriesOf (fileLines text))).map mountDestination).count
      (canonical (destination entry)) ≤ 1

/-- An update that is not refused keeps the records and comments of others, is not changed by
another update, and owns its destinations. -/
def Sound (s : Settings) (text : Text) : Prop :=
  ∀ result, updateFstab s text = .ok result →
    Preserves text result ∧ updateFstab s result = .ok result ∧ Exclusive s result

/-! ## Where Python reads the file otherwise -/

/-- No field has a character of a kind. -/
def Without (kind : Char → Bool) (fields : List Text) : Prop :=
  ∀ field ∈ fields, ∀ c ∈ field, kind c = false

/-- The line up to its first end, as Python sees it. -/
def firstPiece (line : Text) : Text := line.takeWhile (!isLineEnd ·)

/-- The line is read alike by `str.splitlines` and `str.split`: a comment has no other end
of a line; the fields of a record have no other white space, or the record looks like a
comment to Python and has no other end of a line in its fields and no managed destination; and
what the comment at the end of a record has after another end of a line is a comment again. -/
def ReadAlike (destinations : List Text) (line : Text) : Prop :=
  match readLine line with
  | none => True
  | some (.comment _) => ∀ c ∈ line, isLineEnd c = false
  | some (.record fields) =>
    (Without isspace fields ∨ isComment (firstPiece line) = true ∧
        Without isLineEnd fields ∧ mountDestination fields ∉ destinations) ∧
      ∀ piece ∈ (line.splitOnP isLineEnd).tail, visible piece = true →
        readLine piece = some (.comment piece)

/-- The lines outside the managed block are read alike, and they are empty where none of
them is visible. -/
structure Undisturbed (s : Settings) (text : Text) : Prop where
  alike : ∀ entries, fstabEntries s.values = .ok entries →
    ∀ line ∈ outside (fileLines text), ReadAlike (entries.map destination) line
  empty : (∀ line ∈ outside (fileLines text), visible line = false) →
    ∀ line ∈ outside (fileLines text), line = []

/-- No record outside the block is white space only. -/
def VisibleRecords (text : Text) : Prop :=
  ∀ line ∈ outside (fileLines text), ∀ fields, readLine line = some (.record fields) →
    ∃ field ∈ fields, visible field = true

/-- The update is refused: the name of the backing directory is too long, the markers are
malformed, or a line has a managed destination or a wrong number of fields. -/
def Refused (s : Settings) (text : Text) : Prop :=
  match fstabEntries s.values, withoutManagedBlock text with
  | .ok entries, .ok fstab => ∃ line ∈ splitlines fstab, visible line = true ∧
      (owns (entries.map destination) line = true ∨
        isComment line = false ∧ invalidFields (split isspace 6 line) = true)
  | _, _ => True

end Preseed.NetworkSharing
