import Preseed.DesktopFirewall.Rules
import Preseed.Texts.Occurrences

/-!
# The fields of a signed release

`signed_release_fields` of `aptly-publishing` takes the identity of a release from the
text of a clear-signed message. Every line of the text is a field or the continuation of
one. A refused message is `none`.
-/

namespace Preseed.Aptly

open DesktopFirewall (isspace)
open Texts (cut occurrences)

abbrev Bytes := List UInt8

abbrev Text := List Char

/-- A literal of bytes. -/
def ascii (text : String) : Bytes := text.toList.map fun char => char.toNat.toUInt8

def newline : UInt8 := 10

def carriageReturn : UInt8 := 13

def beginMessage : Bytes := ascii "-----BEGIN PGP SIGNED MESSAGE-----"

def beginSignature : Bytes := ascii "-----BEGIN PGP SIGNATURE-----"

def endSignature : Bytes := ascii "-----END PGP SIGNATURE-----"

def beginArmor : Bytes := ascii "-----BEGIN PGP"

def hashHeader : Bytes := ascii "Hash: "

/-! ## Python -/

/-- `data.replace(b"\r\n", b"\n")`. -/
def replaceCrlf : Bytes → Bytes
  | 13 :: 10 :: rest => newline :: replaceCrlf rest
  | byte :: rest => byte :: replaceCrlf rest
  | [] => []

/-- `splitlines` of bytes without carriage returns. -/
def splitlines (data : Bytes) : List Bytes :=
  let lines := data.splitOn newline
  if lines.getLast? = some [] then lines.dropLast else lines

/-- The low bits of a continuation byte. -/
def continuationBits (byte : UInt8) : Option ℕ :=
  if 0x80 ≤ byte.toNat ∧ byte.toNat ≤ 0xBF then some (byte.toNat - 0x80) else none

/-- `raw_line.decode("utf-8")`. -/
def decodeUtf8 : Bytes → Option Text
  | [] => some []
  | first :: rest =>
      if first.toNat ≤ 0x7F then
        (decodeUtf8 rest).map (Char.ofNat first.toNat :: ·)
      else
        match rest with
        | [] => none
        | second :: rest =>
            match continuationBits second with
            | none => none
            | some low =>
                if 0xC2 ≤ first.toNat ∧ first.toNat ≤ 0xDF then
                  (decodeUtf8 rest).map (Char.ofNat ((first.toNat - 0xC0) * 64 + low) :: ·)
                else
                  match rest with
                  | [] => none
                  | third :: rest =>
                      match continuationBits third with
                      | none => none
                      | some lower =>
                          if 0xE0 ≤ first.toNat ∧ first.toNat ≤ 0xEF then
                            let point := (first.toNat - 0xE0) * 4096 + low * 64 + lower
                            -- No overlong form and no surrogate.
                            if 0x800 ≤ point ∧ ¬(0xD800 ≤ point ∧ point ≤ 0xDFFF) then
                              (decodeUtf8 rest).map (Char.ofNat point :: ·)
                            else none
                          else
                            match rest with
                            | [] => none
                            | fourth :: rest =>
                                match continuationBits fourth with
                                | none => none
                                | some lowest =>
                                    let point := (first.toNat - 0xF0) * 262144 + low * 4096 +
                                      lower * 64 + lowest
                                    if 0xF0 ≤ first.toNat ∧ 0x10000 ≤ point ∧ point ≤ 0x10FFFF then
                                      (decodeUtf8 rest).map (Char.ofNat point :: ·)
                                    else none

/-- `value.strip()`. -/
def strip (value : Text) : Text := (value.dropWhile isspace).rdropWhile isspace

/-! ## Fields -/

def identityFields : List Text :=
  ["version", "codename", "suite", "components"].map String.toList

/-- `[A-Za-z][A-Za-z0-9-]*`. -/
def isFieldName (key : Text) : Bool :=
  match key with
  | [] => false
  | first :: rest => first.isAlpha && rest.all fun char => char.isAlphanum || char == '-'

/-- A line's key in lower case, and its value. -/
def fieldOf (line : Text) : Option (Text × Text) := do
  let key := line.takeWhile (· ≠ ':')
  match line.dropWhile (· ≠ ':') with
  | [] => none
  | _ :: value =>
      guard (isFieldName key)
      return (key.map Char.toLower, value)

def isContinuation (line : Text) : Bool := line.head? == some ' ' || line.head? == some '\t'

/-- The dash escape of a line. -/
def unescape (raw : Bytes) : Option Bytes :=
  if (ascii "- ").isPrefixOf raw then some (raw.drop 2)
  else if (ascii "-").isPrefixOf raw then none
  else some raw

/-- The variables of the loop over the lines. -/
structure ReleaseScan where
  current : Option Text
  seen : List Text
  fields : List (Text × Text)
  deriving DecidableEq

/-- One decoded line. -/
def scanText (scan : ReleaseScan) (line : Text) : Option ReleaseScan :=
  if isContinuation line then
    match scan.current with
    | none => none
    | some current => if current ∈ identityFields then none else some scan
  else do
    let (current, value) ← fieldOf line
    guard (current ∉ scan.seen)
    return { current := some current
             seen := scan.seen ++ [current]
             fields :=
               if current ∈ identityFields then scan.fields ++ [(current, strip value)]
               else scan.fields }

/-- One line of the message. -/
def scanLine (scan : ReleaseScan) (raw : Bytes) : Option ReleaseScan := do
  let raw ← unescape raw
  let line ← decodeUtf8 raw
  scanText scan line

/-- `signed_release_fields`. -/
def signedReleaseFields (data : Bytes) : Option (List (Text × Text)) := do
  let normalized := replaceCrlf data
  guard (carriageReturn ∉ normalized)
  guard ((beginMessage ++ [newline]).isPrefixOf normalized)
  let (headers, message) ← cut [newline, newline] normalized
  let hashes := (splitlines headers).drop 1
  guard (hashes ≠ [])
  guard (hashes.all hashHeader.isPrefixOf)
  let (body, signature) ← cut (newline :: (beginSignature ++ [newline])) message
  guard ((newline :: (endSignature ++ [newline])).isSuffixOf signature ∨
    (newline :: endSignature).isSuffixOf signature)
  guard (occurrences endSignature signature = 1)
  guard (¬beginArmor <:+: signature)
  let scan ← ((body.rdropWhile (· = newline)).splitOn newline).foldlM scanLine ⟨none, [], []⟩
  return scan.fields

end Preseed.Aptly
