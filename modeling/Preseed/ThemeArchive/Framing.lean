import Preseed.DesktopFirewall.Rules
import Preseed.Texts.Cursors
import Preseed.ThemeArchive.Index

/-!
# The framing of theme archives

`Archive._zip` walks the central directory of a ZIP file before it is opened, and
`Archive._deb` walks the members of a Debian archive. Both loops move a cursor by lengths
that are in the file. The deadline may pass at every step; a refused file is `none`.
-/

namespace Preseed.ThemeArchive

open List

open DesktopFirewall (isspace)
open Texts (Bytes slice littleEndian length_slice take_add_slice slice_slice)

def byteText (text : String) : Bytes := text.toList.map fun char => char.toNat.toUInt8

def uint16 (blob : Bytes) (start : ℕ) : ℕ := littleEndian (slice blob start 2)

def uint32 (blob : Bytes) (start : ℕ) : ℕ := littleEndian (slice blob start 4)

def maxInput : ℕ := 32 * 1024 ^ 2

/-! ## The directory of a ZIP file -/

def endSignature : Bytes := [0x50, 0x4b, 0x05, 0x06]

def recordSignature : Bytes := [0x50, 0x4b, 0x01, 0x02]

/-- `blob.rfind(pattern, start)`. -/
def rfind (pattern blob : Bytes) (start : ℕ) : Option ℕ :=
  (List.range (blob.length + 1)).reverse.find? fun place =>
    start ≤ place ∧ slice blob place pattern.length = pattern

/-- The walk over the records of the directory, which ends before `offset`. -/
def zipRecords (expired : ℕ → Bool) (blob : Bytes) (offset : ℕ) : (count cursor : ℕ) → Option ℕ
  | 0, cursor => some cursor
  | count + 1, cursor =>
      if expired count then none
      else if offset < cursor + 46 ∨ slice blob cursor 4 ≠ recordSignature then none
      else if ¬(0 < uint16 blob (cursor + 28) ∧ uint16 blob (cursor + 28) ≤ 512) ∨
          uint16 blob (cursor + 34) ≠ 0 then none
      else if offset < cursor + (46 + uint16 blob (cursor + 28) + uint16 blob (cursor + 30) +
          uint16 blob (cursor + 32)) then none
      else zipRecords expired blob offset count (cursor + (46 + uint16 blob (cursor + 28) +
        uint16 blob (cursor + 30) + uint16 blob (cursor + 32)))

/-- `Archive._zip` before the file is opened as an archive. -/
def zipFraming (expired : ℕ → Bool) (blob : Bytes) : Bool :=
  match rfind endSignature blob (blob.length - 65557) with
  | none => false
  | some offset =>
      if blob.length < offset + 22 then false
      else if uint16 blob (offset + 4) ≠ 0 ∨ uint16 blob (offset + 6) ≠ 0 ∨
          uint16 blob (offset + 8) ≠ uint16 blob (offset + 10) ∨
          maxMembers < uint16 blob (offset + 10) ∨ uint16 blob (offset + 10) = 65535 ∨
          uint32 blob (offset + 16) + uint32 blob (offset + 12) ≠ offset ∨
          offset + 22 + uint16 blob (offset + 20) ≠ blob.length then false
      else zipRecords expired blob offset (uint16 blob (offset + 10)) (uint32 blob (offset + 16)) =
        some offset

/-- A record of the central directory. -/
structure CentralRecord where
  header : Bytes
  name : Bytes
  extra : Bytes
  comment : Bytes
  header_length : header.length = 46
  signature : header.take 4 = recordSignature
  name_length : uint16 header 28 = name.length
  extra_length : uint16 header 30 = extra.length
  comment_length : uint16 header 32 = comment.length
  first_disk : uint16 header 34 = 0
  name_nonempty : name ≠ []
  name_short : name.length ≤ 512

def CentralRecord.bytes (record : CentralRecord) : Bytes :=
  record.header ++ (record.name ++ (record.extra ++ record.comment))

/-- The end of the central directory. -/
structure EndRecord where
  header : Bytes
  comment : Bytes
  header_length : header.length = 22
  signature : header.take 4 = endSignature
  comment_length : uint16 header 20 = comment.length

/-- The file ends with one end record, and its directory tiles what is between the place that
it gives and the end record. -/
structure ZipFramed (blob : Bytes) : Prop where
  framed : ∃ (before : Bytes) (records : List CentralRecord) (last : EndRecord),
    blob = before ++ ((records.map CentralRecord.bytes).flatten ++ (last.header ++ last.comment)) ∧
    before.length = uint32 last.header 16 ∧
    (records.map CentralRecord.bytes).flatten.length = uint32 last.header 12 ∧
    records.length = uint16 last.header 10 ∧
    -- No other end record begins in this one or in its comment.
    ∀ place, before.length + (records.map CentralRecord.bytes).flatten.length < place →
      slice blob place 4 ≠ endSignature

variable {blob : Bytes}

theorem rfind_eq_some {pattern : Bytes} {start place : ℕ}
    (h : rfind pattern blob start = some place) :
    start ≤ place ∧ slice blob place pattern.length = pattern ∧
      ∀ later, place < later → later ≤ blob.length →
        slice blob later pattern.length ≠ pattern := by
  have hfound := find?_some h
  simp only [decide_eq_true_eq] at hfound
  refine ⟨hfound.1, hfound.2, ?_⟩
  intro later hlater hlength hpattern
  obtain ⟨-, before, after, hsplit, hbefore⟩ := find?_eq_some_iff_append.mp h
  have hmem : later ∈ before ++ place :: after := by
    rw [← hsplit]
    simp only [mem_reverse, mem_range]
    omega
  have hsorted : (before ++ place :: after).Pairwise (· > ·) := by
    rw [← hsplit, pairwise_reverse]
    exact pairwise_lt_range
  rcases mem_append.mp hmem with hin | hin
  · have hnot := hbefore later hin
    simp only [Bool.not_eq_true', decide_eq_false_iff_not, not_and] at hnot
    exact hnot (by omega) hpattern
  · rcases mem_cons.mp hin with rfl | hin
    · omega
    · have hless := (pairwise_cons.mp (pairwise_append.mp hsorted).2.1).1 later hin
      omega

variable {expired : ℕ → Bool}

/-- The walk over the records finds one after another. -/
theorem zipRecords_tiled {offset count cursor last : ℕ} (hoffset : offset ≤ blob.length)
    (hcursor : cursor ≤ offset) (h : zipRecords expired blob offset count cursor = some last) :
    cursor ≤ last ∧ last ≤ offset ∧ ∃ records : List CentralRecord, records.length = count ∧
      blob.take last = blob.take cursor ++ (records.map CentralRecord.bytes).flatten := by
  induction count generalizing cursor with
  | zero =>
    cases h
    exact ⟨Nat.le_refl _, hcursor, [], rfl, by simp⟩
  | succ count ih =>
    unfold zipRecords at h
    split at h
    · cases h
    split at h
    · cases h
    rename_i hsignature
    split at h
    · cases h
    rename_i hname
    split at h
    · cases h
    rename_i hend
    push Not at hsignature hname hend
    obtain ⟨hheader, hsignature⟩ := hsignature
    obtain ⟨⟨hpositive, hshort⟩, hdisk⟩ := hname
    obtain ⟨hlast, hwithin, records, hcount, hrecords⟩ := ih hend h
    generalize hnameSize : uint16 blob (cursor + 28) = nameSize at *
    generalize hextraSize : uint16 blob (cursor + 30) = extraSize at *
    generalize hcommentSize : uint16 blob (cursor + 32) = commentSize at *
    have hfield (place : ℕ) (hplace : place + 2 ≤ 46) :
        uint16 (slice blob cursor 46) place = uint16 blob (cursor + place) := by
      unfold uint16
      rw [slice_slice hplace]
    refine ⟨by omega, hwithin, ⟨slice blob cursor 46, slice blob (cursor + 46) nameSize,
      slice blob (cursor + 46 + nameSize) extraSize,
      slice blob (cursor + 46 + nameSize + extraSize) commentSize,
      length_slice (by omega), ?_, ?_, ?_, ?_, ?_, ?_, ?_⟩ :: records, ?_, ?_⟩
    · have htake : slice (slice blob cursor 46) 0 4 = slice blob (cursor + 0) 4 :=
        slice_slice (by omega)
      rw [Nat.add_zero, hsignature] at htake
      exact htake
    · rw [hfield 28 (by omega), hnameSize, length_slice (by omega)]
    · rw [hfield 30 (by omega), hextraSize, length_slice (by omega)]
    · rw [hfield 32 (by omega), hcommentSize, length_slice (by omega)]
    · rw [hfield 34 (by omega), hdisk]
    · apply ne_nil_of_length_pos
      rw [length_slice (by omega)]
      exact hpositive
    · rw [length_slice (by omega)]
      exact hshort
    · rw [length_cons, hcount]
    · rw [hrecords, map_cons, flatten_cons, ← append_assoc]
      congr 1
      unfold CentralRecord.bytes
      have hsum : cursor + (46 + nameSize + extraSize + commentSize) =
          cursor + 46 + nameSize + extraSize + commentSize := by omega
      rw [hsum, take_add_slice, take_add_slice, take_add_slice, take_add_slice]
      simp only [append_assoc]

/-- A file that passes the check is framed. -/
theorem zipFraming_framed (h : zipFraming expired blob = true) :
    ZipFramed blob := by
  unfold zipFraming at h
  split at h
  · cases h
  rename_i offset hfound
  obtain ⟨-, hsignature, hlater⟩ := rfind_eq_some hfound
  split at h
  · cases h
  rename_i hlong
  split at h
  · cases h
  rename_i hfields
  push Not at hfields hlong
  obtain ⟨-, -, -, -, -, hcentral, hcomment⟩ := hfields
  have hwalk : zipRecords expired blob offset (uint16 blob (offset + 10))
      (uint32 blob (offset + 16)) = some offset := by simpa using h
  obtain ⟨-, -, records, hcount, hrecords⟩ :=
    zipRecords_tiled (by omega) (by omega) hwalk
  have hfield (place size : ℕ) (hplace : place + size ≤ 22) :
      slice (slice blob offset 22) place size = slice blob (offset + place) size :=
    slice_slice hplace
  have hbefore : (blob.take (uint32 blob (offset + 16))).length = uint32 blob (offset + 16) := by
    rw [length_take]
    omega
  have htiled := congrArg List.length hrecords
  rw [length_append, hbefore, length_take] at htiled
  let last : EndRecord := {
    header := slice blob offset 22
    comment := blob.drop (offset + 22)
    header_length := length_slice hlong
    signature := by
      have htake := hfield 0 4 (by omega)
      rw [Nat.add_zero] at htake
      exact htake.trans hsignature
    comment_length := by
      unfold uint16 at hcomment ⊢
      rw [hfield 20 2 (by omega), length_drop]
      omega }
  have hnumber16 : uint16 last.header 10 = uint16 blob (offset + 10) := by
    unfold uint16
    rw [hfield 10 2 (by omega)]
  have hnumber32 (place : ℕ) (hplace : place + 4 ≤ 22) :
      uint32 last.header place = uint32 blob (offset + place) := by
    unfold uint32
    rw [hfield place 4 hplace]
  constructor
  refine ⟨blob.take (uint32 blob (offset + 16)), records, last, ?_, ?_, ?_, ?_, ?_⟩
  · have hparts : blob = blob.take offset ++ (slice blob offset 22 ++ blob.drop (offset + 22)) := by
      rw [← append_assoc, ← take_add_slice, take_append_drop]
    rw [← append_assoc, ← hrecords]
    exact hparts
  · rw [hbefore, hnumber32 16 (by omega)]
  · rw [hnumber32 12 (by omega)]
    omega
  · rw [hcount, hnumber16]
  · intro place hplace
    by_cases hinside : place ≤ blob.length
    · exact hlater place (by omega) hinside
    · unfold slice
      rw [drop_eq_nil_of_le (by omega)]
      exact fun hempty => nomatch hempty

/-! ## The members of a Debian archive -/

def archiveMagic : Bytes := byteText "!<arch>\n"

/-- `bytes.strip`. -/
def isByteSpace (byte : UInt8) : Bool := byte.toNat ∈ [9, 10, 11, 12, 13, 32]

def stripBytes (value : Bytes) : Bytes := (value.dropWhile isByteSpace).rdropWhile isByteSpace

/-- `int(value)` of decimal digits. -/
def digitsValue (value : Bytes) : ℕ :=
  value.foldl (fun total digit => 10 * total + (digit.toNat - 48)) 0

/-- The size of a member, if the field is a number. -/
def memberSize (head : Bytes) : Option ℕ :=
  let field := stripBytes (slice head 48 10)
  if field ≠ [] ∧ field.all (fun digit => 48 ≤ digit.toNat && digit.toNat ≤ 57) then
    some (digitsValue field)
  else none

/-- `head[:16].decode('ascii').strip().rstrip('/')`. -/
def memberLabel (head : Bytes) : Option (List Char) :=
  if (head.take 16).all (·.toNat < 128) then
    let text := (head.take 16).map fun byte => Char.ofNat byte.toNat
    some (((text.dropWhile isspace).rdropWhile isspace).rdropWhile (· = '/'))
  else none

def versionLabel : List Char := "debian-binary".toList

def versionData : Bytes := byteText "2.0\n"

def dataLabels : List (List Char) := ["data.tar.xz".toList, "data.tar.gz".toList]

/-- The variables of the loop of `Archive._deb`. -/
structure DebState where
  offset : ℕ
  result : Option (Bytes × List Char)
  seen : List (List Char)

/-- One member. -/
def debMember (blob : Bytes) (s : DebState) : Option DebState := do
  let head := slice blob s.offset 60
  guard (head.length = 60 ∧ head.drop 58 = byteText "\x60\n")
  let size ← memberSize head
  let label ← memberLabel head
  let offset := s.offset + 60
  guard (label ∉ s.seen ∧ size ≤ maxInput ∧ offset + size ≤ blob.length)
  let data := slice blob offset size
  guard (label = versionLabel → data = versionData)
  guard (label ∈ dataLabels → s.result = none)
  return ⟨offset + (size + size % 2), if label ∈ dataLabels then some (data, label) else s.result,
    s.seen ++ [label]⟩

/-- The loop over at most `count` members. -/
def debMembers (expired : ℕ → Bool) (blob : Bytes) : (count : ℕ) → DebState → Option DebState
  | 0, s => some s
  | count + 1, s =>
      if expired count then none
      else if s.offset = blob.length then some s
      else (debMember blob s).bind (debMembers expired blob count)

/-- `Archive._deb`. -/
def deb (expired : ℕ → Bool) (blob : Bytes) : Option (Bytes × List Char) := do
  guard (archiveMagic.isPrefixOf blob)
  let s ← debMembers expired blob 8 ⟨8, none, []⟩
  guard (s.offset = blob.length ∧ versionLabel ∈ s.seen)
  s.result

/-- A member of a Debian archive. -/
structure DebMember where
  label : List Char
  head : Bytes
  data : Bytes
  padding : Bytes
  head_length : head.length = 60
  mark : head.drop 58 = byteText "\x60\n"
  label_eq : memberLabel head = some label
  size_eq : memberSize head = some data.length
  padded : padding.length = data.length % 2

def DebMember.bytes (member : DebMember) : Bytes := member.head ++ (member.data ++ member.padding)

def DebMember.isData (member : DebMember) : Bool := member.label ∈ dataLabels

/-- The whole file is the magic and distinct members, among them the version and one member
with the data. -/
structure DebFramed (blob data : Bytes) (label : List Char) (members : List DebMember) : Prop where
  bytes : blob = archiveMagic ++ (members.map DebMember.bytes).flatten
  few : members.length ≤ 8
  distinct : (members.map DebMember.label).Nodup
  version : ∃ member ∈ members, member.label = versionLabel ∧ member.data = versionData
  single : ∃ member, members.filter DebMember.isData = [member] ∧ member.data = data ∧
    member.label = label

/-- What the loop has walked over. -/
structure Walked (blob : Bytes) (s : DebState) (members : List DebMember) : Prop where
  bytes : s.offset ≤ blob.length →
    blob.take s.offset = archiveMagic ++ (members.map DebMember.bytes).flatten
  labels : members.map DebMember.label = s.seen
  distinct : s.seen.Nodup
  version : ∀ member ∈ members, member.label = versionLabel → member.data = versionData
  result : (members.filter DebMember.isData).map (fun member => (member.data, member.label)) =
    s.result.toList

theorem debMember_eq_some {s t : DebState} (h : debMember blob s = some t) :
    ∃ size label, (slice blob s.offset 60).length = 60 ∧
      (slice blob s.offset 60).drop 58 = byteText "\x60\n" ∧
      memberSize (slice blob s.offset 60) = some size ∧
      memberLabel (slice blob s.offset 60) = some label ∧
      label ∉ s.seen ∧ s.offset + 60 + size ≤ blob.length ∧
      (label = versionLabel → slice blob (s.offset + 60) size = versionData) ∧
      (label ∈ dataLabels → s.result = none) ∧
      t = ⟨s.offset + 60 + (size + size % 2),
        if label ∈ dataLabels then some (slice blob (s.offset + 60) size, label) else s.result,
        s.seen ++ [label]⟩ := by
  simp only [debMember, Option.bind_eq_bind, Option.bind_eq_some_iff, Option.guard_eq_some'] at h
  obtain ⟨_, ⟨hlength, hmark⟩, size, hsize, label, hlabel, _, ⟨hnew, -, hinside⟩, _, hversion, _,
    hdata, ht⟩ := h
  exact ⟨size, label, hlength, hmark, hsize, hlabel, hnew, hinside, hversion, hdata,
    (Option.some.inj ht).symm⟩

/-- One member more. -/
theorem Walked.member {s t : DebState} {members : List DebMember} (h : Walked blob s members)
    (hstep : debMember blob s = some t) :
    ∃ member, Walked blob t (members ++ [member]) := by
  obtain ⟨size, label, hlength, hmark, hsize, hlabel, hnew, hinside, hversion, hdata, rfl⟩ :=
    debMember_eq_some hstep
  have hdataLength : (slice blob (s.offset + 60) size).length = size := length_slice hinside
  -- The padding of the last member may be missing, which ends the walk outside the file.
  obtain ⟨padding, hpadding, htail⟩ : ∃ padding : Bytes, padding.length = size % 2 ∧
      (s.offset + 60 + (size + size % 2) ≤ blob.length →
        slice blob (s.offset + 60 + size) (size % 2) = padding) := by
    by_cases hroom : s.offset + 60 + (size + size % 2) ≤ blob.length
    · exact ⟨slice blob (s.offset + 60 + size) (size % 2), length_slice (by omega), fun _ => rfl⟩
    · exact ⟨List.replicate (size % 2) 0, length_replicate, fun h => absurd h hroom⟩
  refine ⟨⟨label, slice blob s.offset 60, slice blob (s.offset + 60) size, padding, hlength, hmark,
    hlabel, by rw [hsize, hdataLength], by rw [hpadding, hdataLength]⟩, ?_⟩
  constructor
  · intro hroom
    have hbefore := h.bytes (by omega)
    have hsum : s.offset + 60 + (size + size % 2) = s.offset + 60 + size + size % 2 := by omega
    rw [hsum, take_add_slice, take_add_slice, take_add_slice, hbefore, htail hroom, map_append,
      flatten_append]
    simp only [DebMember.bytes, map_cons, map_nil, flatten_cons, flatten_nil,
      append_nil, append_assoc]
  · rw [map_append, h.labels]
    rfl
  · exact nodup_append.mpr ⟨h.distinct, nodup_singleton _, by
      intro one hone other hother
      obtain rfl := mem_singleton.mp hother
      rintro rfl
      exact hnew hone⟩
  · intro member hmember
    rcases mem_append.mp hmember with hold | hlast
    · exact h.version member hold
    · obtain rfl := mem_singleton.mp hlast
      exact hversion
  · rw [filter_append, map_append, h.result]
    by_cases hkind : label ∈ dataLabels
    · rw [hdata hkind, if_pos hkind,
        filter_cons_of_pos (by simpa [DebMember.isData] using hkind)]
      rfl
    · rw [if_neg hkind, filter_cons_of_neg (by simpa [DebMember.isData] using hkind)]
      exact append_nil _

theorem Walked.members {count : ℕ} {s t : DebState} {members : List DebMember}
    (h : Walked blob s members) (hwalk : debMembers expired blob count s = some t) :
    ∃ all, Walked blob t all ∧ all.length ≤ members.length + count := by
  induction count generalizing s members with
  | zero =>
    cases hwalk
    exact ⟨members, h, Nat.le_refl _⟩
  | succ count ih =>
    unfold debMembers at hwalk
    split at hwalk
    · cases hwalk
    split at hwalk
    · cases hwalk
      exact ⟨members, h, Nat.le_add_right _ _⟩
    · obtain ⟨next, hnext, hrest⟩ := Option.bind_eq_some_iff.mp hwalk
      obtain ⟨member, hmember⟩ := h.member hnext
      obtain ⟨all, hall, hlength⟩ := ih hmember hrest
      rw [length_append, length_singleton] at hlength
      exact ⟨all, hall, by omega⟩

/-- A file that is accepted is framed. -/
theorem deb_framed {data : Bytes} {label : List Char}
    (h : deb expired blob = some (data, label)) : ∃ members, DebFramed blob data label members := by
  simp only [deb, Option.bind_eq_bind, Option.bind_eq_some_iff, Option.guard_eq_some'] at h
  obtain ⟨_, hmagic, s, hwalk, _, ⟨hend, hversion⟩, hresult⟩ := h
  have hstart : Walked blob ⟨8, none, []⟩ [] := by
    constructor
    · intro _
      obtain ⟨rest, rfl⟩ := isPrefixOf_iff_prefix.mp hmagic
      rfl
    · rfl
    · exact nodup_nil
    · intro member hmember
      cases hmember
    · rfl
  obtain ⟨members, hall, hlength⟩ := hstart.members hwalk
  rw [length_nil] at hlength
  have hblob := hall.bytes (by omega)
  rw [hend, take_length] at hblob
  refine ⟨members, hblob, by omega, hall.labels ▸ hall.distinct, ?_, ?_⟩
  · rw [← hall.labels] at hversion
    obtain ⟨member, hmember, hname⟩ := mem_map.mp hversion
    exact ⟨member, hmember, hname, hall.version member hmember hname⟩
  · have hsingle := hall.result
    rw [hresult, Option.toList_some] at hsingle
    obtain ⟨member, hfilter, hpair⟩ := map_eq_singleton_iff.mp hsingle
    obtain ⟨hdata, hlabel⟩ := Prod.mk.inj hpair
    exact ⟨member, hfilter, hdata, hlabel⟩

/-! ## The theorem -/

/-- For every file: `_zip` passes its check and `_deb` returns only on a framed file. -/
theorem archive_framing_exact (expired : ℕ → Bool) (blob : Bytes) :
    (zipFraming expired blob = true → ZipFramed blob) ∧
      ∀ data label, deb expired blob = some (data, label) →
        ∃ members, DebFramed blob data label members :=
  ⟨zipFraming_framed, fun _ _ => deb_framed⟩

/-- A directory with one name of one letter. -/
def oneNameZip : Bytes :=
  recordSignature ++ (List.replicate 24 0 ++ ([1, 0] ++ (List.replicate 16 0 ++ ([97] ++
    (endSignature ++ [0, 0, 0, 0, 1, 0, 1, 0, 47, 0, 0, 0, 0, 0, 0, 0, 0, 0])))))

/-- An archive with the version and one byte of data. -/
def oneByteDeb : Bytes :=
  archiveMagic ++ (byteText "debian-binary   " ++ (List.replicate 32 32 ++
    (byteText "4         \x60\n" ++ (versionData ++ (byteText "data.tar.xz/    " ++
      (List.replicate 32 32 ++ (byteText "1         \x60\n" ++ [7, 10])))))))

theorem archive_framing_exact_one : ZipFramed oneNameZip ∧
    ∃ members, DebFramed oneByteDeb [7] "data.tar.xz".toList members :=
  ⟨(archive_framing_exact (fun _ => false) oneNameZip).1 (by decide),
    (archive_framing_exact (fun _ => false) oneByteDeb).2 _ _ (by decide +kernel)⟩

end Preseed.ThemeArchive
