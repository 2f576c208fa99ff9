import Preseed.Aptly.SignedRelease
import Preseed.Texts.Cursors

/-!
# The header of a GGUF file

`_inspect_gguf_file` reads the counts, the metadata and the tensors of a model without
keeping what it does not show: such values are passed over. The reader moves a cursor over
the file, and every place that it reaches is recorded.
-/

namespace Preseed.Copilots

open List

open Aptly (Text ascii decodeUtf8)
open Texts (Bytes Cursor Reading slice littleEndian length_slice length_slice_le
  take_add_slice drop_eq_slice_append)
open Texts.Reading (check fail loop bind_some bind_none check_true check_false Reads Ready Stopped)

/-! ## The reader -/

/-- `metadata_byte_limit`. -/
def metadataByteLimit : ℕ := 536870912

/-- `tell`. -/
def tell : Reading ℕ := fun _ s => (some s.position, s)

def fileSize : Reading ℕ := fun file s => (some file.length, s)

/-- `handle.read`. -/
def handleRead (size : ℕ) : Reading Bytes := fun file s =>
  (some (slice file s.position size),
    s.moveTo (s.position + (slice file s.position size).length))

/-- `handle.seek(size, os.SEEK_CUR)`. -/
def handleSeek (size : ℕ) : Reading Unit := fun _ s => (some (), s.moveTo (s.position + size))

def markMetadataStart : Reading Unit := fun _ s => (some (), { s with start := s.position })

/-- `_check_position`. -/
def checkPosition : Reading Unit := fun file s =>
  check (s.position ≤ file.length ∧ (s.start ≠ 0 → s.position ≤ s.start + metadataByteLimit)) file s

def readExact (size : ℕ) : Reading Bytes := do
  check (size ≤ 536870912)
  let data ← handleRead size
  check (data.length = size)
  checkPosition
  return data

def unpack (size : ℕ) : Reading ℕ := return littleEndian (← readExact size)

def skip (size : ℕ) : Reading Unit := do
  let target := (← tell) + size
  check (target ≤ (← fileSize))
  handleSeek size
  checkPosition

/-- `read_string`; without `decode` the text is passed over. -/
def readString (decode : Bool) (maximumDecoded : ℕ) : Reading (Option Text) := do
  let length ← unpack 8
  check (length ≤ 268435456)
  if decode then
    check (length ≤ maximumDecoded)
    match decodeUtf8 (← readExact length) with
    | none => fail
    | some text => return some text
  else
    skip length
    return none

/-! ## Values -/

inductive ScalarKind
  | unsigned
  | signed
  | real
  deriving DecidableEq

/-- `_SCALAR_FORMATS`, with the sizes. -/
def scalarFormat : ℕ → Option (ScalarKind × ℕ)
  | 0 => some (.unsigned, 1)
  | 1 => some (.signed, 1)
  | 2 => some (.unsigned, 2)
  | 3 => some (.signed, 2)
  | 4 => some (.unsigned, 4)
  | 5 => some (.signed, 4)
  | 6 => some (.real, 4)
  | 7 => some (.unsigned, 1)
  | 10 => some (.unsigned, 8)
  | 11 => some (.signed, 8)
  | 12 => some (.real, 8)
  | _ => none

def stringType : ℕ := 8

def arrayType : ℕ := 9

/-- A value that is kept; a real number is its bytes. -/
inductive Value
  | integer (n : ℤ)
  | real (raw : Bytes)
  | text (text : Text)
  deriving DecidableEq

/-- `struct.unpack`. -/
def unpackScalar (kind : ScalarKind) (raw : Bytes) : Value :=
  match kind with
  | .unsigned => .integer (littleEndian raw)
  | .signed =>
      if 2 * littleEndian raw < 256 ^ raw.length then .integer (littleEndian raw)
      else .integer ((littleEndian raw : ℤ) - 256 ^ raw.length)
  | .real => .real raw

def skipArray (elementType count : ℕ) : Reading Unit :=
  match scalarFormat elementType with
  | some (_, size) => skip (size * count)
  | none =>
      if elementType = stringType then do
        check (count ≤ 2000000)
        loop (fun _ => do let _ ← readString false 1048576; return ()) count ()
      else fail

/-- `read_value`. -/
def readValue (valueType : ℕ) (retain : Bool) : Reading (Option Value) :=
  match scalarFormat valueType with
  | some (kind, size) => do
      let raw ← readExact size
      return if retain then some (unpackScalar kind raw) else none
  | none =>
      if valueType = stringType then do
        return (← readString retain 1048576).map Value.text
      else if valueType = arrayType then do
        let elementType ← unpack 4
        let count ← unpack 8
        check (count ≤ 10000000)
        check (retain = false)
        skipArray elementType count
        return none
      else fail

/-! ## The header -/

def interestingKeys : List Text :=
  ["general.architecture", "general.name", "general.author", "general.description",
    "general.license", "general.license.name", "general.license.link",
    "general.file_type"].map String.toList

def retainedEndings : List Text :=
  [".context_length", ".block_count", ".embedding_length", ".attention.head_count",
    ".attention.head_count_kv", ".attention.key_length",
    ".attention.value_length"].map String.toList

/-- The values of this key are kept. -/
def retainsKey (key : Text) : Bool :=
  key ∈ interestingKeys || retainedEndings.any (·.isSuffixOf key)

abbrev Metadata := List (Text × Value)

/-- `metadata[key] = value`. -/
def setItem (metadata : Metadata) (key : Text) (value : Value) : Metadata :=
  if metadata.any (·.1 = key) then
    metadata.map fun item => if item.1 = key then (key, value) else item
  else metadata ++ [(key, value)]

/-- One key and its value. -/
def readRecord (metadata : Metadata) : Reading Metadata := do
  match ← readString true 4096 with
  | none => fail
  | some key =>
      check (key ≠ [] ∧ key.length ≤ 4096)
      let valueType ← unpack 4
      let retain := retainsKey key && !(valueType = arrayType && key ∉ interestingKeys)
      let value ← readValue valueType retain
      return match value with
        | some value => if retain then setItem metadata key value else metadata
        | none => metadata

/-- `_TENSOR_TYPES`. -/
def tensorTypeNames : List (ℕ × String) :=
  [(0, "F32"), (1, "F16"), (2, "Q4_0"), (3, "Q4_1"), (6, "Q5_0"), (7, "Q5_1"), (8, "Q8_0"),
    (9, "Q8_1"), (10, "Q2_K"), (11, "Q3_K"), (12, "Q4_K"), (13, "Q5_K"), (14, "Q6_K"),
    (15, "Q8_K"), (16, "IQ2_XXS"), (17, "IQ2_XS"), (18, "IQ3_XXS"), (19, "IQ1_S"),
    (20, "IQ4_NL"), (21, "IQ3_S"), (22, "IQ2_S"), (23, "IQ4_XS"), (24, "I8"), (25, "I16"),
    (26, "I32"), (27, "I64"), (28, "F64"), (29, "IQ1_M"), (30, "BF16"), (31, "Q4_0_4_4"),
    (32, "Q4_0_4_8"), (33, "Q4_0_8_8"), (34, "TQ1_0"), (35, "TQ2_0"), (36, "IQ4_NL_4_4"),
    (37, "IQ4_NL_4_8"), (38, "IQ4_NL_8_8")]

def tensorTypeName (tensorType : ℕ) : String :=
  (tensorTypeNames.lookup tensorType).getD ("TYPE_" ++ toString tensorType)

abbrev TypeCounts := List (String × ℕ)

/-- `tensor_types[name] += 1`. -/
def countType (counts : TypeCounts) (name : String) : TypeCounts :=
  if counts.any (·.1 = name) then
    counts.map fun item => if item.1 = name then (name, item.2 + 1) else item
  else counts ++ [(name, 1)]

def readDimension (parameters : ℕ) : Reading ℕ := do
  let dimension ← unpack 8
  check (1 ≤ dimension ∧ dimension ≤ 10000000000)
  check (parameters * dimension ≤ 10000000000000)
  return parameters * dimension

/-- One tensor. -/
def readTensor (total : ℕ × TypeCounts) : Reading (ℕ × TypeCounts) := do
  let _ ← readString false 1048576
  let dimensionCount ← unpack 4
  check (1 ≤ dimensionCount ∧ dimensionCount ≤ 8)
  let parameters ← loop readDimension dimensionCount 1
  check (total.1 + parameters ≤ 100000000000000)
  let tensorType ← unpack 4
  let _ ← unpack 8
  return (total.1 + parameters, countType total.2 (tensorTypeName tensorType))

structure GgufInfo where
  sizeBytes : ℕ
  version : ℕ
  tensorCount : ℕ
  metadataCount : ℕ
  parameterCount : ℕ
  tensorTypes : TypeCounts
  metadata : Metadata
  deriving DecidableEq

/-- The records and the tensors. -/
def readBody (version tensorCount metadataCount : ℕ) : Reading GgufInfo := do
  let metadata ← loop readRecord metadataCount []
  let (parameterCount, tensorTypes) ← loop readTensor tensorCount (0, [])
  return ⟨← fileSize, version, tensorCount, metadataCount, parameterCount, tensorTypes, metadata⟩

def readHeader : Reading GgufInfo := do
  check ((← readExact 4) = ascii "GGUF")
  let version ← unpack 4
  check (version = 2 ∨ version = 3)
  let tensorCount ← unpack 8
  let metadataCount ← unpack 8
  check (tensorCount ≤ 1000000)
  check (metadataCount ≤ 100000)
  markMetadataStart
  readBody version tensorCount metadataCount

/-- `_inspect_gguf_file` on the bytes of a regular file, with the cursor at the end. -/
def inspectGguf (file : Bytes) : Option GgufInfo × Cursor :=
  if 24 ≤ file.length ∧ file.length ≤ 107374182400 then readHeader file ⟨0, 0, []⟩
  else (none, ⟨0, 0, []⟩)

/-! ## The grammar -/

def IsNumber (width : ℕ) (bytes : Bytes) (n : ℕ) : Prop :=
  bytes.length = width ∧ littleEndian bytes = n

def IsString (bytes raw : Bytes) : Prop :=
  ∃ head, IsNumber 8 head raw.length ∧ bytes = head ++ raw

/-- The bytes of a value of this type. An array is not a value that is kept. -/
inductive IsValue : ℕ → Bytes → Option Value → Prop
  | scalar {valueType : ℕ} {kind : ScalarKind} {size : ℕ} {raw : Bytes}
      (format : scalarFormat valueType = some (kind, size)) (length : raw.length = size) :
      IsValue valueType raw (some (unpackScalar kind raw))
  | string {bytes raw : Bytes} (h : IsString bytes raw) :
      IsValue stringType bytes ((decodeUtf8 raw).map Value.text)
  | scalars {element count raw : Bytes} {elementType n size : ℕ} {kind : ScalarKind}
      (helement : IsNumber 4 element elementType) (hcount : IsNumber 8 count n)
      (format : scalarFormat elementType = some (kind, size)) (length : raw.length = size * n) :
      IsValue arrayType (element ++ (count ++ raw)) none
  | strings {element count : Bytes} {texts : List {text : Bytes × Bytes // IsString text.1 text.2}}
      (helement : IsNumber 4 element stringType) (hcount : IsNumber 8 count texts.length) :
      IsValue arrayType (element ++ (count ++ (texts.map (·.1.1)).flatten)) none

/-- A key and its value; a value that is kept is a text that can be decoded or a number. -/
structure MetadataRecord where
  key : Text
  valueType : ℕ
  value : Option Value
  bytes : Bytes
  nonempty : key ≠ []
  decoded : retainsKey key = true → valueType ≠ arrayType → value ≠ none
  wellFormed : ∃ name raw kind body, bytes = name ++ (kind ++ body) ∧ IsString name raw ∧
    decodeUtf8 raw = some key ∧ IsNumber 4 kind valueType ∧ IsValue valueType body value

/-- The value of the record is kept. -/
def MetadataRecord.retained (record : MetadataRecord) : Bool :=
  retainsKey record.key && record.valueType ≠ arrayType

/-- The metadata after a record. -/
def MetadataRecord.store (metadata : Metadata) (record : MetadataRecord) : Metadata :=
  match record.value with
  | some value => if record.retained then setItem metadata record.key value else metadata
  | none => metadata

structure TensorRecord where
  dimensions : List {dimension : Bytes × ℕ // IsNumber 8 dimension.1 dimension.2}
  tensorType : ℕ
  bytes : Bytes
  few : 1 ≤ dimensions.length ∧ dimensions.length ≤ 8
  wellFormed : ∃ name raw count kind offset,
    bytes = name ++ (count ++ ((dimensions.map (·.1.1)).flatten ++ (kind ++ offset))) ∧
      IsString name raw ∧ IsNumber 4 count dimensions.length ∧ IsNumber 4 kind tensorType ∧
      offset.length = 8

/-- The product of the dimensions. -/
def TensorRecord.parameters (tensor : TensorRecord) : ℕ :=
  (tensor.dimensions.map (·.1.2)).prod

structure Header where
  start : Bytes
  version : ℕ
  records : List MetadataRecord
  tensors : List TensorRecord
  supported : version = 2 ∨ version = 3
  wellFormed : ∃ versionBytes tensorCount metadataCount,
    start = ascii "GGUF" ++ (versionBytes ++ (tensorCount ++ metadataCount)) ∧
      IsNumber 4 versionBytes version ∧ IsNumber 8 tensorCount tensors.length ∧
      IsNumber 8 metadataCount records.length

def Header.bytes (header : Header) : Bytes :=
  header.start ++ ((header.records.map MetadataRecord.bytes).flatten ++
    (header.tensors.map TensorRecord.bytes).flatten)

/-! ## What the reader takes -/

/-- `_Reader` under its limit. -/
abbrev Takes {α : Type} (m : Reading α) (Q : Bytes → α → Prop) : Prop :=
  Reads metadataByteLimit m Q

variable {file : Bytes} {s : Cursor}

theorem readyMoved (hs : Ready metadataByteLimit file s) {place : ℕ} (hfile : place ≤ file.length)
    (hlimit : place ≤ s.start + metadataByteLimit) :
    Ready metadataByteLimit file (s.moveTo place) := by
  constructor
  · exact hs.started
  · exact hfile
  · intro other hother
    rcases mem_cons.mp hother with rfl | hold
    · exact ⟨hfile, hlimit⟩
    · exact hs.inside other hold

theorem stoppedMoved (hs : Ready metadataByteLimit file s) {place : ℕ}
    (hfile : place ≤ file.length) :
    Stopped metadataByteLimit s.start file (s.moveTo place) := by
  constructor
  · intro other hother
    rcases mem_cons.mp hother with rfl | hold
    · exact hfile
    · exact (hs.inside other hold).1
  · intro other hother
    exact (hs.inside other hother).2

/-- A checked position is where the reader may be. -/
theorem checkPosition_moved (hs : Ready metadataByteLimit file s) {place : ℕ}
    (hfile : place ≤ file.length) :
    (checkPosition file (s.moveTo place) = (some (), s.moveTo place) ∧
      place ≤ s.start + metadataByteLimit) ∨
    checkPosition file (s.moveTo place) = (none, s.moveTo place) := by
  have hstart : s.start ≠ 0 := Nat.pos_iff_ne_zero.mp hs.started
  by_cases hlimit : place ≤ s.start + metadataByteLimit
  · exact .inl ⟨check_true ⟨hfile, fun _ => hlimit⟩ file _, hlimit⟩
  · exact .inr (check_false (fun h => hlimit (h.2 hstart)) file _)

theorem takes_readExact (size : ℕ) :
    Takes (readExact size) fun taken data => taken = data ∧ data.length = size := by
  intro file s hs
  unfold readExact
  by_cases hsize : size ≤ 536870912
  · rw [bind_some (check_true hsize file s)]
    have hmove : s.position + (slice file s.position size).length ≤ file.length := by
      have hslice := length_slice_le file s.position size
      have hposition := hs.position
      omega
    have hread : handleRead size file s = (some (slice file s.position size),
        s.moveTo (s.position + (slice file s.position size).length)) := rfl
    rw [bind_some hread]
    by_cases hlength : (slice file s.position size).length = size
    · rw [bind_some (check_true hlength file _)]
      rcases checkPosition_moved hs hmove with ⟨hcheck, hlimit⟩ | hcheck
      · rw [bind_some hcheck]
        refine ⟨readyMoved hs hmove hlimit, rfl, slice file s.position size, ?_, rfl, rfl, hlength⟩
        rw [drop_eq_slice_append file s.position size]
        show _ = _ ++ file.drop (s.position + (slice file s.position size).length)
        rw [hlength]
      · rw [bind_none hcheck]
        exact stoppedMoved hs hmove
    · rw [bind_none (check_false hlength file _)]
      exact stoppedMoved hs hmove
  · rw [bind_none (check_false hsize file s)]
    exact hs.stopped

theorem takes_unpack (size : ℕ) : Takes (unpack size) fun taken n => IsNumber size taken n := by
  refine .bind (takes_readExact size) ?_
  rintro taken data ⟨rfl, hlength⟩
  exact .pure ⟨by rw [append_nil]; exact hlength, by rw [append_nil]⟩

theorem takes_skip (size : ℕ) : Takes (skip size) fun taken _ => taken.length = size := by
  intro file s hs
  unfold skip
  have htell : tell file s = (some s.position, s) := rfl
  have hsize : fileSize file s = (some file.length, s) := rfl
  rw [bind_some htell, bind_some hsize]
  by_cases hfile : s.position + size ≤ file.length
  · have hseek : handleSeek size file s = (some (), s.moveTo (s.position + size)) := rfl
    rw [bind_some (check_true hfile file s), bind_some hseek]
    rcases checkPosition_moved hs hfile with ⟨hcheck, hlimit⟩ | hcheck
    · rw [hcheck]
      refine ⟨readyMoved hs hfile hlimit, rfl, slice file s.position size, ?_, ?_, ?_⟩
      · exact drop_eq_slice_append file s.position size
      · rw [length_slice hfile]
        rfl
      · exact length_slice hfile
    · rw [hcheck]
      exact stoppedMoved hs hfile
  · rw [bind_none (check_false hfile file s)]
    exact hs.stopped

/-- A text is a string; its bytes are passed over unless they are decoded. -/
theorem takes_readString (decode : Bool) (maximumDecoded : ℕ) :
    Takes (readString decode maximumDecoded) fun taken text => ∃ raw, IsString taken raw ∧
      (decode = true → ∃ value, decodeUtf8 raw = some value ∧ text = some value) ∧
      (decode = false → text = none) := by
  refine .bind (takes_unpack 8) ?_
  intro head length hhead
  refine .checked fun _ => ?_
  cases decode with
  | true =>
    refine .checked fun _ => ?_
    refine .bind (takes_readExact length) ?_
    rintro taken raw ⟨rfl, rfl⟩
    split
    · exact .fail
    · rename_i text htext
      refine .pure ⟨taken, ⟨head, hhead, by rw [append_nil]⟩, ?_, ?_⟩
      · intro _
        exact ⟨text, htext, rfl⟩
      · intro hfalse
        cases hfalse
  | false =>
    refine .bind (takes_skip length) ?_
    rintro raw _ rfl
    refine .pure ⟨raw, ⟨head, hhead, by rw [append_nil]⟩, ?_, fun _ => rfl⟩
    intro htrue
    cases htrue

theorem takes_skipArray (elementType count : ℕ) :
    Takes (skipArray elementType count) fun taken _ =>
      (∃ kind size, scalarFormat elementType = some (kind, size) ∧ taken.length = size * count) ∨
      (elementType = stringType ∧ ∃ texts : List {text : Bytes × Bytes // IsString text.1 text.2},
        texts.length = count ∧ taken = (texts.map (·.1.1)).flatten) := by
  unfold skipArray
  cases hformat : scalarFormat elementType with
  | some format =>
    refine .mono (takes_skip (format.2 * count)) ?_
    intro taken _ hlength
    exact .inl ⟨format.1, format.2, rfl, hlength⟩
  | none =>
    by_cases hstring : elementType = stringType
    · rw [if_pos hstring]
      refine .checked fun _ => ?_
      have hbody (u : Unit) : Takes (do let _ ← readString false 1048576; return ())
          fun taken (v : Unit) => ∃ text : {text : Bytes × Bytes // IsString text.1 text.2},
            taken = text.1.1 ∧ v = u := by
        refine .bind (takes_readString false 1048576) ?_
        rintro taken _ ⟨raw, hraw, -, -⟩
        exact .pure ⟨⟨(taken, raw), hraw⟩, append_nil _, rfl⟩
      refine .mono (.loop hbody count ()) ?_
      rintro taken _ ⟨texts, hcount, htaken, -⟩
      exact .inr ⟨hstring, texts, hcount, htaken⟩
    · rw [if_neg hstring]
      exact .fail

/-- A value is taken whole, whether it is kept or passed over. -/
theorem takes_readValue (valueType : ℕ) (retain : Bool) :
    Takes (readValue valueType retain) fun taken value => ∃ full, IsValue valueType taken full ∧
      (retain = true → value = full ∧ valueType ≠ arrayType ∧ value ≠ none) ∧
      (retain = false → value = none) := by
  unfold readValue
  cases hformat : scalarFormat valueType with
  | some format =>
    refine .bind (takes_readExact format.2) ?_
    rintro taken raw ⟨rfl, hlength⟩
    refine .pure ⟨_, by rw [append_nil]; exact .scalar hformat hlength, ?_, ?_⟩
    · rintro rfl
      refine ⟨rfl, ?_, Option.some_ne_none _⟩
      rintro rfl
      cases hformat
    · rintro rfl
      rfl
  | none =>
    by_cases hstring : valueType = stringType
    · rw [if_pos hstring]
      refine .bind (takes_readString retain 1048576) ?_
      rintro taken text ⟨raw, hraw, hdecoded, hpassed⟩
      refine .pure ⟨_, by rw [append_nil, hstring]; exact .string hraw, ?_, ?_⟩
      · intro hretain
        obtain ⟨decoded, hdecode, rfl⟩ := hdecoded hretain
        refine ⟨by rw [hdecode], ?_, Option.some_ne_none _⟩
        rw [hstring]
        decide
      · intro hretain
        rw [hpassed hretain]
        rfl
    · rw [if_neg hstring]
      by_cases harray : valueType = arrayType
      · rw [if_pos harray]
        refine .bind (takes_unpack 4) ?_
        intro element elementType helement
        refine .bind (takes_unpack 8) ?_
        intro count n hcount
        refine .checked fun _ => .checked fun hretain => ?_
        refine .bind (takes_skipArray elementType n) ?_
        intro items _ hitems
        refine .pure ⟨none, ?_, fun htrue => ?_, fun _ => rfl⟩
        · rw [append_nil, harray]
          rcases hitems with ⟨kind, size, helementFormat, hlength⟩ | ⟨rfl, texts, rfl, rfl⟩
          · exact .scalars helement hcount helementFormat hlength
          · exact .strings helement hcount
        · rw [hretain] at htrue
          cases htrue
      · rw [if_neg harray]
        exact .fail

/-- One record is taken and stored. -/
theorem takes_readRecord (metadata : Metadata) :
    Takes (readRecord metadata) fun taken after => ∃ record : MetadataRecord,
      taken = record.bytes ∧ after = MetadataRecord.store metadata record := by
  refine .bind (takes_readString true 4096) ?_
  rintro name text ⟨raw, hraw, hdecoded, -⟩
  obtain ⟨key, hkey, rfl⟩ := hdecoded rfl
  refine .checked fun hnonempty => ?_
  refine .bind (takes_unpack 4) ?_
  intro kind valueType hkind
  refine .bind (takes_readValue valueType _) ?_
  rintro body value ⟨full, hfull, hkept, hpassed⟩
  -- An array is kept for no key: for the interesting ones the reader has given up.
  cases hretain : retainsKey key && !(valueType = arrayType && key ∉ interestingKeys) with
  | true =>
    obtain ⟨rfl, harray, hsome⟩ := hkept hretain
    obtain ⟨hretains, -⟩ := Bool.and_eq_true_iff.mp hretain
    refine .pure ⟨⟨key, valueType, value, name ++ (kind ++ body), hnonempty.1,
      fun _ _ => hsome, name, raw, kind, body, rfl, hraw, hkey, hkind, hfull⟩, ?_, ?_⟩
    · rw [append_nil]
    · unfold MetadataRecord.store MetadataRecord.retained
      simp [hretains, harray]
  | false =>
    obtain rfl := hpassed hretain
    have hnot : retainsKey key = true → valueType = arrayType := by
      intro hretains
      rw [hretains] at hretain
      simp only [Bool.true_and, Bool.not_eq_false', Bool.and_eq_true, decide_eq_true_eq] at hretain
      exact hretain.1
    refine .pure ⟨⟨key, valueType, full, name ++ (kind ++ body), hnonempty.1,
      fun hretains harray => absurd (hnot hretains) harray,
      name, raw, kind, body, rfl, hraw, hkey, hkind, hfull⟩, ?_, ?_⟩
    · rw [append_nil]
    · unfold MetadataRecord.store MetadataRecord.retained
      cases full with
      | none => rfl
      | some value =>
        have hpass : ¬((retainsKey key && decide (valueType ≠ arrayType)) = true) := by
          simpa using hnot
        exact (if_neg hpass).symm

theorem takes_readDimension (parameters : ℕ) :
    Takes (readDimension parameters) fun taken after =>
      ∃ dimension : {dimension : Bytes × ℕ // IsNumber 8 dimension.1 dimension.2},
        taken = dimension.1.1 ∧ after = parameters * dimension.1.2 := by
  refine .bind (takes_unpack 8) ?_
  intro taken dimension hdimension
  refine .checked fun _ => .checked fun _ => ?_
  exact .pure ⟨⟨(taken, dimension), hdimension⟩, append_nil _, rfl⟩

/-- The sum and the counts after a tensor. -/
def TensorRecord.add (total : ℕ × TypeCounts) (tensor : TensorRecord) : ℕ × TypeCounts :=
  (total.1 + tensor.parameters, countType total.2 (tensorTypeName tensor.tensorType))

/-- One tensor is taken and added. -/
theorem takes_readTensor (total : ℕ × TypeCounts) :
    Takes (readTensor total) fun taken after => ∃ tensor : TensorRecord,
      taken = tensor.bytes ∧ after = TensorRecord.add total tensor := by
  refine .bind (takes_readString false 1048576) ?_
  rintro name _ ⟨raw, hraw, -, -⟩
  refine .bind (takes_unpack 4) ?_
  intro count dimensionCount hcount
  refine .checked fun hfew => ?_
  refine .bind (.loop takes_readDimension dimensionCount 1) ?_
  rintro _ parameters ⟨dimensions, rfl, rfl, rfl⟩
  refine .checked fun _ => ?_
  refine .bind (takes_unpack 4) ?_
  intro kind tensorType hkind
  refine .bind (takes_unpack 8) ?_
  intro offset _ hoffset
  refine .pure ⟨⟨dimensions, tensorType, _, hfew, name, raw, count, kind, offset, rfl, hraw,
    hcount, hkind, hoffset.1⟩, ?_, ?_⟩
  · simp only [append_nil]
  · have hproduct : (dimensions.foldl (fun parameters dimension => parameters * dimension.1.2) 1) =
        (dimensions.map (·.1.2)).prod := by
      rw [prod_eq_foldl, foldl_map]
    unfold TensorRecord.add TensorRecord.parameters
    rw [hproduct]

/-- The records and the tensors are taken one after another. -/
theorem takes_readBody (version tensorCount metadataCount : ℕ) :
    Takes (readBody version tensorCount metadataCount) fun taken info =>
      ∃ (records : List MetadataRecord) (tensors : List TensorRecord),
        records.length = metadataCount ∧ tensors.length = tensorCount ∧
        taken = (records.map MetadataRecord.bytes).flatten ++
          (tensors.map TensorRecord.bytes).flatten ∧
        info.version = version ∧ info.tensorCount = tensorCount ∧
        info.metadataCount = metadataCount ∧
        info.metadata = records.foldl MetadataRecord.store [] ∧
        (info.parameterCount, info.tensorTypes) = tensors.foldl TensorRecord.add (0, []) := by
  refine .bind (.loop takes_readRecord metadataCount []) ?_
  rintro _ metadata ⟨records, hrecords, rfl, rfl⟩
  refine .bind (.loop takes_readTensor tensorCount (0, [])) ?_
  rintro _ total ⟨tensors, htensors, rfl, rfl⟩
  have hsize : Takes fileSize fun taken _ => taken = [] := by
    intro file s hs
    exact ⟨hs, rfl, [], rfl, rfl, rfl⟩
  refine .bind hsize ?_
  rintro _ size rfl
  refine .pure ⟨records, tensors, hrecords, htensors, ?_, rfl, rfl, rfl, rfl, rfl⟩
  simp only [append_nil]

/-! ## What is reported -/

theorem lookup_replaced (metadata : Metadata) (key other : Text) (value : Value) :
    (metadata.map fun item => if item.1 = key then (key, value) else item).lookup other =
      if other = key then (metadata.lookup key).map fun _ => value else metadata.lookup other := by
  induction metadata with
  | nil => simp
  | cons item metadata ih =>
    rw [map_cons]
    by_cases hitem : item.1 = key
    · rw [if_pos hitem, List.lookup_cons, List.lookup_cons, List.lookup_cons, ih, hitem]
      by_cases hother : other = key
      · simp [hother]
      · simp [hother, beq_eq_false_iff_ne.mpr hother]
    · rw [if_neg hitem, List.lookup_cons, List.lookup_cons, List.lookup_cons, ih]
      by_cases hother : other = key
      · have hkey : (key == item.1) = false := beq_eq_false_iff_ne.mpr (Ne.symm hitem)
        simp [hother, hkey]
      · simp [hother]

theorem lookup_setItem (metadata : Metadata) (key other : Text) (value : Value) :
    (setItem metadata key value).lookup other =
      if other = key then some value else metadata.lookup other := by
  unfold setItem
  split
  · rename_i hany
    rw [lookup_replaced]
    obtain ⟨item, hitem, hkey⟩ := any_eq_true.mp hany
    have hkey : item.1 = key := by simpa using hkey
    cases hlookup : metadata.lookup key with
    | some old => rfl
    | none =>
      have hdifferent := lookup_eq_none_iff.mp hlookup item hitem
      simp [hkey] at hdifferent
  · rename_i hany
    rw [lookup_append]
    have hnone : metadata.lookup key = none := by
      rw [lookup_eq_none_iff]
      intro item hitem
      have hother : ¬item.1 = key := fun hkey =>
        hany (any_eq_true.mpr ⟨item, hitem, by simpa using hkey⟩)
      simpa using Ne.symm hother
    by_cases hother : other = key
    · rw [if_pos hother, hother, hnone]
      simp
    · rw [if_neg hother]
      simp [List.lookup_cons, beq_eq_false_iff_ne.mpr hother]

/-- A record changes its own key only, and only when it is kept. -/
theorem lookup_stored (metadata : Metadata) (record : MetadataRecord) (key : Text) :
    (MetadataRecord.store metadata record).lookup key =
      if record.key = key ∧ record.retained = true then record.value else metadata.lookup key := by
  unfold MetadataRecord.store
  cases hvalue : record.value with
  | none =>
    have hnot : ¬(record.key = key ∧ record.retained = true) := by
      rintro ⟨-, hretained⟩
      unfold MetadataRecord.retained at hretained
      obtain ⟨hretains, harray⟩ := Bool.and_eq_true_iff.mp hretained
      exact record.decoded hretains (by simpa using harray) hvalue
    rw [if_neg hnot]
  | some value =>
    by_cases hretained : record.retained = true
    · simp only [hretained, if_true, and_true, lookup_setItem, eq_comm]
    · simp only [hretained, Bool.false_eq_true, if_false, and_false]

/-- The last record of a key that is kept gives its value. -/
theorem lookup_store (records : List MetadataRecord) (key : Text) :
    (records.foldl MetadataRecord.store []).lookup key =
      ((records.filter fun record => record.key = key ∧ record.retained = true).getLast?).bind
        MetadataRecord.value := by
  induction records using List.reverseRecOn with
  | nil => rfl
  | append_singleton records record ih =>
    rw [foldl_append, filter_append]
    show (MetadataRecord.store _ record).lookup key = _
    rw [lookup_stored, ih]
    by_cases hkept : record.key = key ∧ record.retained = true
    · rw [if_pos hkept, filter_cons_of_pos (by simpa using hkept), filter_nil,
        getLast?_concat]
      rfl
    · rw [if_neg hkept, filter_cons_of_neg (by simpa using hkept), filter_nil,
        append_nil]

/-- A name that is counted once more. -/
theorem sum_counted {counts : TypeCounts} {name : String} (h : (counts.map Prod.fst).Nodup)
    (hname : name ∈ counts.map Prod.fst) :
    ((counts.map fun item => if item.1 = name then (name, item.2 + 1) else item).map
      Prod.snd).sum = (counts.map Prod.snd).sum + 1 := by
  induction counts with
  | nil => cases hname
  | cons item counts ih =>
    obtain ⟨hnew, hrest⟩ := nodup_cons.mp h
    rw [map_cons]
    by_cases hitem : item.1 = name
    · have hothers : (counts.map fun item => if item.1 = name then (name, item.2 + 1) else item) =
          counts := by
        nth_rewrite 2 [← map_id counts]
        apply map_congr_left
        intro other hother
        have hdifferent : other.1 ≠ name := by
          rintro rfl
          exact hnew (hitem ▸ mem_map_of_mem hother)
        exact if_neg hdifferent
      rw [if_pos hitem, hothers]
      simp only [map_cons, sum_cons]
      omega
    · have hlater : name ∈ counts.map Prod.fst := by
        rcases mem_cons.mp hname with heq | hlater
        · exact absurd heq.symm hitem
        · exact hlater
      rw [if_neg hitem]
      simp only [map_cons, sum_cons]
      rw [ih hrest hlater]
      omega

theorem sum_countType {counts : TypeCounts} (h : (counts.map Prod.fst).Nodup) (name : String) :
    ((countType counts name).map Prod.fst).Nodup ∧
      ((countType counts name).map Prod.snd).sum = (counts.map Prod.snd).sum + 1 := by
  have hany : counts.any (·.1 = name) = true ↔ name ∈ counts.map Prod.fst := by
    simp [any_eq_true]
  unfold countType
  by_cases hname : name ∈ counts.map Prod.fst
  · rw [if_pos (hany.mpr hname)]
    have hnames : (counts.map fun item => if item.1 = name then (name, item.2 + 1) else item).map
        Prod.fst = counts.map Prod.fst := by
      rw [map_map]
      apply map_congr_left
      intro item _
      by_cases hitem : item.1 = name
      · simp [hitem]
      · simp [hitem]
    exact ⟨hnames ▸ h, sum_counted h hname⟩
  · rw [if_neg (mt hany.mp hname), map_append, map_append, sum_append]
    refine ⟨nodup_append.mpr ⟨h, nodup_singleton _, ?_⟩, by simp⟩
    intro one hone other hother
    obtain rfl := mem_singleton.mp hother
    rintro rfl
    exact hname hone

theorem foldl_add (tensors : List TensorRecord) :
    (tensors.foldl TensorRecord.add (0, [])).1 = (tensors.map TensorRecord.parameters).sum ∧
      ((tensors.foldl TensorRecord.add (0, [])).2.map Prod.fst).Nodup ∧
      ((tensors.foldl TensorRecord.add (0, [])).2.map Prod.snd).sum = tensors.length := by
  induction tensors using List.reverseRecOn with
  | nil => exact ⟨rfl, nodup_nil, rfl⟩
  | append_singleton tensors tensor ih =>
    obtain ⟨hsum, hnames, hcounts⟩ := ih
    obtain ⟨hnames, hadded⟩ := sum_countType hnames (tensorTypeName tensor.tensorType)
    rw [foldl_append]
    refine ⟨?_, hnames, ?_⟩
    · show _ + tensor.parameters = _
      rw [hsum, map_append, sum_append]
      simp
    · show ((countType _ _).map Prod.snd).sum = _
      rw [hadded, hcounts, length_append, length_singleton]

/-! ## The whole header -/

/-- Before the limited part a read inside the file succeeds. -/
theorem readExact_free {size : ℕ} (hsize : size ≤ 536870912) (hstart : s.start = 0)
    (hfile : s.position + size ≤ file.length) :
    readExact size file s =
      (some (slice file s.position size), s.moveTo (s.position + size)) := by
  have hlength := length_slice hfile
  have hread : handleRead size file s =
      (some (slice file s.position size), s.moveTo (s.position + size)) := by
    unfold handleRead
    rw [hlength]
  have hposition : checkPosition file (s.moveTo (s.position + size)) =
      (some (), s.moveTo (s.position + size)) :=
    check_true ⟨hfile, fun hlimited => absurd hstart hlimited⟩ file _
  unfold readExact
  rw [bind_some (check_true hsize file s), bind_some hread, bind_some (check_true hlength file _),
    bind_some hposition]
  rfl

theorem unpack_free {size : ℕ} (hsize : size ≤ 536870912) (hstart : s.start = 0)
    (hfile : s.position + size ≤ file.length) :
    unpack size file s =
      (some (littleEndian (slice file s.position size)), s.moveTo (s.position + size)) := by
  unfold unpack
  rw [bind_some (readExact_free hsize hstart hfile)]
  rfl

/-- What the reader leaves, and what it has reached. -/
def Inspected (file : Bytes) (answer : Option GgufInfo × Cursor) : Prop :=
  Stopped metadataByteLimit 24 file answer.2 ∧
  ∀ info, answer.1 = some info →
    (∀ place ∈ answer.2.touched, place ≤ 24 + metadataByteLimit) ∧
    ∃ header : Header, file = header.bytes ++ file.drop answer.2.position ∧
      answer.2.position = header.bytes.length ∧ info.version = header.version ∧
      info.tensorCount = header.tensors.length ∧ info.metadataCount = header.records.length ∧
      info.parameterCount = (header.tensors.map TensorRecord.parameters).sum ∧
      (info.tensorTypes.map Prod.snd).sum = info.tensorCount ∧
      ∀ key, info.metadata.lookup key = ((header.records.filter fun record =>
        record.key = key ∧ record.retained = true).getLast?).bind MetadataRecord.value

/-- A reader that gives up in the first 24 bytes. -/
theorem Inspected.early (hfile : 24 ≤ file.length)
    (h : ∀ place ∈ s.touched, place ≤ 24) : Inspected file (none, s) := by
  refine ⟨⟨?_, ?_⟩, ?_⟩
  · intro place hplace
    have hplace := h place hplace
    omega
  · intro place hplace
    have hplace := h place (mem_of_mem_tail hplace)
    omega
  · intro info hinfo
    cases hinfo

/-- After the counts the reader is at the start of the limited part. -/
theorem readHeader_inspected (hfile : 24 ≤ file.length) :
    Inspected file (readHeader file ⟨0, 0, []⟩) := by
  have hmagic : readExact 4 file ⟨0, 0, []⟩ = (some (slice file 0 4), ⟨4, 0, [4]⟩) :=
    readExact_free (by decide) rfl (by show 0 + 4 ≤ file.length; omega)
  have hversion : unpack 4 file ⟨4, 0, [4]⟩ =
      (some (littleEndian (slice file 4 4)), ⟨8, 0, [8, 4]⟩) :=
    unpack_free (by decide) rfl (by show 4 + 4 ≤ file.length; omega)
  have htensors : unpack 8 file ⟨8, 0, [8, 4]⟩ =
      (some (littleEndian (slice file 8 8)), ⟨16, 0, [16, 8, 4]⟩) :=
    unpack_free (by decide) rfl (by show 8 + 8 ≤ file.length; omega)
  have hrecords : unpack 8 file ⟨16, 0, [16, 8, 4]⟩ =
      (some (littleEndian (slice file 16 8)), ⟨24, 0, [24, 16, 8, 4]⟩) :=
    unpack_free (by decide) rfl (by show 16 + 8 ≤ file.length; omega)
  have hmark : markMetadataStart file ⟨24, 0, [24, 16, 8, 4]⟩ =
      (some (), ⟨24, 24, [24, 16, 8, 4]⟩) := rfl
  have hearly (s : Cursor) (h : ∀ place ∈ s.touched, place ≤ 24) : Inspected file (none, s) :=
    .early hfile h
  unfold readHeader
  rw [bind_some hmagic]
  by_cases hstart : slice file 0 4 = ascii "GGUF"
  swap
  · rw [bind_none (check_false hstart file _)]
    exact hearly _ (by decide)
  rw [bind_some (check_true hstart file _), bind_some hversion]
  by_cases hsupported : littleEndian (slice file 4 4) = 2 ∨ littleEndian (slice file 4 4) = 3
  swap
  · rw [bind_none (check_false hsupported file _)]
    exact hearly _ (by decide)
  rw [bind_some (check_true hsupported file _), bind_some htensors, bind_some hrecords]
  by_cases hmany : littleEndian (slice file 8 8) ≤ 1000000
  swap
  · rw [bind_none (check_false hmany file _)]
    exact hearly _ (by decide)
  rw [bind_some (check_true hmany file _)]
  by_cases hlong : littleEndian (slice file 16 8) ≤ 100000
  swap
  · rw [bind_none (check_false hlong file _)]
    exact hearly _ (by decide)
  rw [bind_some (check_true hlong file _), bind_some hmark]
  have hready : Ready metadataByteLimit file ⟨24, 24, [24, 16, 8, 4]⟩ := by
    constructor
    · decide
    · exact hfile
    · intro place hplace
      have hle : place ≤ 24 := by
        revert place
        decide
      exact ⟨by omega, by show place ≤ 24 + _; omega⟩
  have hbody := takes_readBody (littleEndian (slice file 4 4)) (littleEndian (slice file 8 8))
    (littleEndian (slice file 16 8)) file _ hready
  split at hbody
  · rename_i t hrun
    rw [hrun]
    exact ⟨hbody, fun info hinfo => nomatch hinfo⟩
  · rename_i info t hrun
    obtain ⟨ht, hsame, taken, hdrop, hposition, records, tensors, hrecordCount, htensorCount, rfl,
      hinfoVersion, hinfoTensors, hinfoRecords, hinfoMetadata, hinfoTotals⟩ := hbody
    have hsame : t.start = 24 := hsame
    rw [hrun]
    refine ⟨hsame ▸ ht.stopped, ?_⟩
    rintro _ ⟨rfl⟩
    obtain ⟨hsum, -, hcounts⟩ := foldl_add tensors
    rw [← hinfoTotals] at hsum hcounts
    refine ⟨fun place hplace => hsame ▸ (ht.inside place hplace).2, ⟨file.take 24,
      littleEndian (slice file 4 4), records, tensors, hsupported, slice file 4 4, slice file 8 8,
      slice file 16 8, ?_, ⟨length_slice (by omega), rfl⟩,
      ⟨length_slice (by omega), htensorCount.symm⟩, ⟨length_slice (by omega), hrecordCount.symm⟩⟩,
      ?_, ?_, hinfoVersion, hinfoTensors.trans htensorCount.symm,
      hinfoRecords.trans hrecordCount.symm, hsum, ?_, ?_⟩
    · have hfour : file.take 24 = file.take (0 + 4 + 4 + 8 + 8) := rfl
      rw [hfour, take_add_slice, take_add_slice, take_add_slice, take_add_slice, hstart]
      simp only [take_zero, nil_append, append_assoc]
    · unfold Header.bytes
      rw [append_assoc, ← hdrop]
      exact (take_append_drop 24 file).symm
    · unfold Header.bytes
      rw [length_append, length_take, hposition, Nat.min_eq_left hfile]
    · rw [hcounts, hinfoTensors, htensorCount]
    · intro key
      rw [hinfoMetadata, lookup_store]

/-- For every file: the reader stays inside the file, and only its last place may be beyond the
byte limit of the metadata; it gives up, or it has taken one well-formed header whose sum of
parameters, tensor types and metadata it reports. -/
theorem gguf_header_read (file : Bytes) : Inspected file (inspectGguf file) := by
  unfold inspectGguf
  split
  · rename_i hsize
    exact readHeader_inspected hsize.1
  · refine ⟨⟨?_, ?_⟩, ?_⟩
    · intro place hplace
      cases hplace
    · intro place hplace
      cases hplace
    · intro info hinfo
      cases hinfo

/-! ## A key that occurs twice -/

def repeatedKey : Text := ".block_count".toList

def keyBytes : Bytes := [12, 0, 0, 0, 0, 0, 0, 0] ++ ascii ".block_count"

theorem isString_keyBytes : IsString keyBytes (ascii ".block_count") :=
  ⟨[12, 0, 0, 0, 0, 0, 0, 0], ⟨rfl, by decide⟩, rfl⟩

theorem decode_key : decodeUtf8 (ascii ".block_count") = some repeatedKey := by decide +kernel

theorem isNumber_zero : IsNumber 4 [0, 0, 0, 0] 0 := ⟨rfl, rfl⟩

theorem isNumber_zero_eight : IsNumber 8 [0, 0, 0, 0, 0, 0, 0, 0] 0 := ⟨rfl, rfl⟩

theorem isNumber_nine : IsNumber 4 [9, 0, 0, 0] arrayType := ⟨rfl, rfl⟩

theorem scalarFormat_zero : scalarFormat 0 = some (.unsigned, 1) := rfl

theorem isValue_seven : IsValue 0 [7] (some (.integer 7)) := .scalar scalarFormat_zero rfl

theorem isValue_array :
    IsValue arrayType ([0, 0, 0, 0] ++ ([0, 0, 0, 0, 0, 0, 0, 0] ++ [])) none :=
  .scalars isNumber_zero isNumber_zero_eight scalarFormat_zero rfl

/-- The number of blocks, and then an array of no numbers under the same key. -/
def numberRecord : MetadataRecord where
  key := repeatedKey
  valueType := 0
  value := some (.integer 7)
  bytes := keyBytes ++ ([0, 0, 0, 0] ++ [7])
  nonempty := cons_ne_nil _ _
  decoded := fun _ _ => Option.some_ne_none _
  wellFormed := ⟨keyBytes, ascii ".block_count", [0, 0, 0, 0], [7], rfl, isString_keyBytes,
    decode_key, isNumber_zero, isValue_seven⟩

def arrayRecord : MetadataRecord where
  key := repeatedKey
  valueType := arrayType
  value := none
  bytes := keyBytes ++ ([9, 0, 0, 0] ++ ([0, 0, 0, 0] ++ ([0, 0, 0, 0, 0, 0, 0, 0] ++ [])))
  nonempty := cons_ne_nil _ _
  decoded := fun _ h => absurd rfl h
  wellFormed := ⟨keyBytes, ascii ".block_count", [9, 0, 0, 0], _, rfl, isString_keyBytes,
    decode_key, isNumber_nine, isValue_array⟩

def repeatedHeader : Header where
  start := ascii "GGUF" ++ ([3, 0, 0, 0] ++ ([0, 0, 0, 0, 0, 0, 0, 0] ++ [2, 0, 0, 0, 0, 0, 0, 0]))
  version := 3
  records := [numberRecord, arrayRecord]
  tensors := []
  supported := Or.inr rfl
  wellFormed := ⟨_, _, _, rfl, ⟨rfl, rfl⟩, ⟨rfl, rfl⟩, ⟨rfl, rfl⟩⟩

/-- The value that is reported is not that of the last record with its key, which is an array. -/
theorem array_record_passed_over :
    (inspectGguf repeatedHeader.bytes).1.map (·.metadata.lookup repeatedKey) =
      some (some (.integer 7)) ∧
    (repeatedHeader.records.filter fun record => record.key = repeatedKey).getLast?.map
      MetadataRecord.value = some none := by
  refine ⟨by decide +kernel, ?_⟩
  rfl

end Preseed.Copilots
