import Preseed.Zram.RangeBuilder

/-!
# Candidates of the block state

`capture_zram_state` of `Zram::Metrics` scans the kernel's `block_state`, a line
for each page, and gives the pages of each class to its range builder. The file
is a text of bytes, and a fatal error is `none`. Page indexes and times are exact,
as the interpreter's integers are below `2 ^ 63`.
-/

namespace Preseed.Zram

open Option

/-- The classes of pages that are written back. -/
inductive PageClass
  | idle | hugeIdle | incompressible
  deriving DecidableEq

/-! ## Lines -/

def MAX_BLOCK_STATE_LINE_BYTES : ℕ := 4096

/-- The lines of a file, each with its newline. -/
def splitLines : List Char → List (List Char)
  | [] => []
  | char :: chars =>
      if char = '\n' then [char] :: splitLines chars
      else
        match splitLines chars with
        | [] => [[char]]
        | line :: lines => (char :: line) :: lines

/-- `\s` on bytes. -/
def isSpace (char : Char) : Bool := char.toNat ∈ [9, 10, 11, 12, 13, 32]

def digitsNumber (digits : List Char) : ℕ :=
  digits.foldl (fun number digit => 10 * number + (digit.toNat - '0'.toNat)) 0

/-- What a line says about a page. -/
structure PageState where
  index : ℕ
  atime : ℕ
  flags : List Char
  deriving DecidableEq

/-- `(?:\.[0-9]+)?` before a space. -/
def dropFraction (chars : List Char) : List Char :=
  match chars with
  | '.' :: rest => if rest.takeWhile Char.isDigit = [] then chars else rest.dropWhile Char.isDigit
  | chars => chars

/-- `/\A\s*(\d+)\s+([0-9]+)(?:\.[0-9]+)?\s+(\S+)/`. -/
def parseLine (line : List Char) : Option PageState := do
  let line := line.dropWhile isSpace
  let index := line.takeWhile Char.isDigit
  guard (index ≠ [])
  let afterIndex := line.dropWhile Char.isDigit
  guard (afterIndex.takeWhile isSpace ≠ [])
  let atimeOn := afterIndex.dropWhile isSpace
  let atime := atimeOn.takeWhile Char.isDigit
  guard (atime ≠ [])
  let afterAtime := dropFraction (atimeOn.dropWhile Char.isDigit)
  guard (afterAtime.takeWhile isSpace ≠ [])
  let flags := (afterAtime.dropWhile isSpace).takeWhile (!isSpace ·)
  guard (flags ≠ [])
  return { index := digitsNumber index, atime := digitsNumber atime, flags := flags }

/-- `_scan_block_state`: whether it was cut at the line limit, and what its callback left. -/
def scanBlockState {σ : Type} (lineLimit : ℕ) (callback : σ → List Char → Option σ) :
    List (List Char) → ℕ → σ → Option (Bool × σ)
  | [], _, state => some (false, state)
  | line :: lines, scanned, state => do
      guard (line.length ≤ MAX_BLOCK_STATE_LINE_BYTES)
      if lineLimit < scanned + 1 then return (true, state)
      let state ← callback state line
      scanBlockState lineLimit callback lines (scanned + 1) state

/-! ## Pages -/

/-- The ages and limits which a scan reads. -/
structure ScanSettings where
  uptimeSec : ℕ
  hotAgeSec : ℕ
  idleAgeSec : ℕ
  chunkPageLimit : ℕ
  maxSpecBytes : ℕ
  maxChunks : ℕ
  blockStateLineLimit : ℕ

namespace PageState

variable (settings : ScanSettings) (page : PageState)

def age : ℕ := settings.uptimeSec - page.atime

def isHot : Bool := decide (page.age settings ≤ settings.hotAgeSec)

def isCold : Bool := decide (0 < settings.idleAgeSec) && decide (settings.idleAgeSec ≤ page.age settings)

def isIdle : Bool := 'i' ∈ page.flags

def isHuge : Bool := 'h' ∈ page.flags

def isIncompressible : Bool := 'n' ∈ page.flags

def isSame : Bool := 's' ∈ page.flags

def isWritten : Bool := 'w' ∈ page.flags

def writebackWorthy : Bool := !page.isSame && !page.isWritten

def ageSafe : Bool := settings.idleAgeSec == 0 || page.isCold settings

/-- Not hot, unless every age is idle. -/
def notHot : Bool := !page.isHot settings || settings.idleAgeSec == 0

/-- The pages of a class. -/
def selects : PageClass → Bool
  | .idle =>
      page.writebackWorthy && page.isIdle && page.ageSafe settings && page.notHot settings
  | .hugeIdle =>
      page.writebackWorthy && !page.isIncompressible && page.isHuge && page.isIdle &&
        page.ageSafe settings && page.notHot settings
  | .incompressible =>
      page.writebackWorthy && page.isIncompressible && (page.isCold settings || page.isIdle) &&
        page.notHot settings

end PageState

/-- The page counters which the policy reads. -/
structure PageCounts where
  coldPages : ℕ
  idlePages : ℕ
  idleColdPages : ℕ
  hugePages : ℕ
  hugeIdlePages : ℕ
  hugeIdleColdPages : ℕ
  incompressiblePages : ℕ
  incompressibleColdPages : ℕ
  deriving DecidableEq

def PageCounts.zero : PageCounts := ⟨0, 0, 0, 0, 0, 0, 0, 0⟩

/-- A page counts as hot before it counts as cold, but only in the first counter. -/
def PageCounts.count (counts : PageCounts) (settings : ScanSettings) (page : PageState) :
    PageCounts :=
  let one (condition : Bool) : ℕ := if condition then 1 else 0
  let hot := page.isHot settings
  let cold := page.isCold settings
  { coldPages := counts.coldPages + one (!hot && cold)
    idlePages := counts.idlePages + one page.isIdle
    idleColdPages := counts.idleColdPages + one (page.isIdle && cold)
    hugePages := counts.hugePages + one page.isHuge
    hugeIdlePages := counts.hugeIdlePages + one (page.isHuge && page.isIdle)
    hugeIdleColdPages := counts.hugeIdleColdPages + one (page.isHuge && page.isIdle && cold)
    incompressiblePages := counts.incompressiblePages + one page.isIncompressible
    incompressibleColdPages :=
      counts.incompressibleColdPages + one (page.isIncompressible && cold) }

/-! ## Capture -/

/-- The limits of a class's builder. -/
def ScanSettings.limits (settings : ScanSettings) (cap : ℕ) : BuilderLimits where
  maxPages := cap
  chunkPageLimit := settings.chunkPageLimit
  maxSpecBytes := settings.maxSpecBytes
  maxChunks := settings.maxChunks

/-- A class has a builder if it has a cap. -/
def classBuilder (settings : ScanSettings) (cap : ℕ) : Option (Option Builder) :=
  if cap = 0 then some none else (newRangeBuilder (settings.limits cap)).map some

/-- Give a page to the builder of a class that selects it. -/
def collectPage (settings : ScanSettings) (cap : ℕ) (kind : PageClass) (page : PageState) :
    Option Builder → Option (Option Builder)
  | none => some none
  | some builder =>
      if page.selects settings kind then
        (addPageIndexRange (settings.limits cap) builder page.index).map some
      else some (some builder)

/-- What the scan has found so far. -/
structure Candidates where
  counts : PageCounts
  builders : PageClass → Option Builder

/-- The callback of the scan. -/
def collectLine (settings : ScanSettings) (caps : PageClass → ℕ) (found : Candidates)
    (line : List Char) : Option Candidates :=
  match parseLine line with
  | none => some found
  | some page => do
      let idle ← collectPage settings (caps .idle) .idle page (found.builders .idle)
      let hugeIdle ← collectPage settings (caps .hugeIdle) .hugeIdle page (found.builders .hugeIdle)
      let incompressible ← collectPage settings (caps .incompressible) .incompressible page
        (found.builders .incompressible)
      return { counts := found.counts.count settings page
               builders := fun
                 | .idle => idle
                 | .hugeIdle => hugeIdle
                 | .incompressible => incompressible }

/-- The values of `capture_zram_state` which the policy reads. -/
structure Stats where
  blockStateAvailable : Bool
  blockStateTruncated : Bool
  counts : PageCounts
  /-- `*_writeback_specs`. -/
  writebackSpecs : PageClass → List Spec
  /-- `targeted_*_pages`. -/
  targetedPages : PageClass → ℕ

/-- The specifications and the count of a class. -/
def finishClass (settings : ScanSettings) (cap : ℕ) : Option Builder → Option (List Spec × ℕ)
  | none => some ([], 0)
  | some builder =>
      (finishPageIndexRanges (settings.limits cap) builder).map fun finished =>
        (finished.chunks, finished.pages)

/-- The scan of a file, which may not be there. -/
def readBlockState (settings : ScanSettings) (caps : PageClass → ℕ) (initial : Candidates) :
    Option String → Option (Bool × Candidates)
  | none => some (false, initial)
  | some content =>
      scanBlockState settings.blockStateLineLimit (collectLine settings caps)
        (splitLines content.toList) 0 initial

/-- `capture_zram_state` with a scan. -/
def captureZramState (settings : ScanSettings) (caps : PageClass → ℕ)
    (blockState : Option String) : Option Stats := do
  let idle ← classBuilder settings (caps .idle)
  let hugeIdle ← classBuilder settings (caps .hugeIdle)
  let incompressible ← classBuilder settings (caps .incompressible)
  let initial : Candidates :=
    { counts := PageCounts.zero
      builders := fun
        | .idle => idle
        | .hugeIdle => hugeIdle
        | .incompressible => incompressible }
  let (truncated, found) ← readBlockState settings caps initial blockState
  let idle ← finishClass settings (caps .idle) (found.builders .idle)
  let hugeIdle ← finishClass settings (caps .hugeIdle) (found.builders .hugeIdle)
  let incompressible ← finishClass settings (caps .incompressible) (found.builders .incompressible)
  let finished : PageClass → List Spec × ℕ := fun
    | .idle => idle
    | .hugeIdle => hugeIdle
    | .incompressible => incompressible
  return { blockStateAvailable := blockState.isSome
           blockStateTruncated := truncated
           counts := found.counts
           writebackSpecs := fun kind => (finished kind).1
           targetedPages := fun kind => (finished kind).2 }

/-- The pages that a file describes. -/
def blockPages (content : String) : List PageState :=
  (splitLines content.toList).filterMap parseLine

/-- The pages of a class in lines of a file, in order. -/
def classIndexes (settings : ScanSettings) (kind : PageClass) (pages : List PageState) : List ℕ :=
  (pages.filter fun page => page.selects settings kind).map PageState.index

/-! ## What a scan collects -/

/-- What a callback preserves from line to line holds for the lines that were scanned. -/
theorem scan_run {σ : Type} {holds : List (List Char) → σ → Prop} {lineLimit : ℕ}
    {callback : σ → List Char → Option σ}
    (hstep : ∀ seen state line after, holds seen state → callback state line = some after →
      holds (seen ++ [line]) after)
    {lines seen : List (List Char)} {scanned : ℕ} {state final : σ} {truncated : Bool}
    (h : scanBlockState lineLimit callback lines scanned state = some (truncated, final))
    (hstate : holds seen state) :
    ∃ read, read <+: lines ∧ holds (seen ++ read) final ∧ (truncated = false → read = lines) := by
  induction lines generalizing seen scanned state with
  | nil =>
    cases h
    exact ⟨[], List.prefix_refl _, by simpa using hstate, fun _ => rfl⟩
  | cons line lines ih =>
    simp only [scanBlockState, bind_eq_bind, bind_eq_some_iff] at h
    obtain ⟨_, _, h⟩ := h
    split at h
    · cases h
      exact ⟨[], List.nil_prefix, by simpa using hstate, fun h => absurd h (by decide)⟩
    · simp only [bind_eq_some_iff] at h
      obtain ⟨after, hafter, h⟩ := h
      obtain ⟨read, hread, hholds, hall⟩ := ih h (hstep seen state line after hstate hafter)
      refine ⟨line :: read, ?_, ?_, fun hcomplete => ?_⟩
      · exact List.cons_prefix_cons.mpr ⟨rfl, hread⟩
      · simpa using hholds
      · rw [hall hcomplete]

/-- A class's builder collects pages of its class, within its cap. -/
def ClassCollects (settings : ScanSettings) (cap : ℕ) (kind : PageClass) (pages : List PageState)
    (builder : Option Builder) : Prop :=
  ∀ collecting, builder = some collecting → 0 < cap ∧
    Collects (settings.limits cap) collecting (classIndexes settings kind pages)

theorem classBuilder_collects {settings : ScanSettings} {cap : ℕ} {builder : Option Builder}
    (kind : PageClass) (h : classBuilder settings cap = some builder) :
    ClassCollects settings cap kind [] builder := by
  intro collecting hbuilder
  subst hbuilder
  unfold classBuilder at h
  split at h
  · cases h
  · rename_i hcap
    simp only [newRangeBuilder, bind_eq_bind, map_eq_some_iff,
      bind_eq_some_iff] at h
    obtain ⟨initial, ⟨_, _, _, _, hinitial⟩, hcollecting⟩ := h
    cases hinitial
    cases hcollecting
    exact ⟨Nat.pos_of_ne_zero hcap, Collects.initial _⟩

theorem collectPage_collects {settings : ScanSettings} {cap : ℕ} {kind : PageClass}
    {page : PageState} {pages : List PageState} {builder after : Option Builder}
    (hbuilder : ClassCollects settings cap kind pages builder)
    (h : collectPage settings cap kind page builder = some after) :
    ClassCollects settings cap kind (pages ++ [page]) after := by
  intro collecting hcollecting
  subst hcollecting
  cases builder with
  | none => cases h
  | some before =>
    obtain ⟨hcap, hcollects⟩ := hbuilder before rfl
    refine ⟨hcap, ?_⟩
    simp only [collectPage] at h
    split at h
    · rename_i hselects
      obtain ⟨added, hadded, hsame⟩ := map_eq_some_iff.mp h
      cases hsame
      have hindexes : classIndexes settings kind (pages ++ [page]) =
          classIndexes settings kind pages ++ [page.index] := by
        simp [classIndexes, hselects]
      rw [hindexes]
      exact hcollects.add hadded
    · rename_i hselects
      obtain rfl := Option.some.inj (Option.some.inj h)
      have hindexes : classIndexes settings kind (pages ++ [page]) =
          classIndexes settings kind pages := by
        simp [classIndexes, hselects]
      rw [hindexes]
      exact hcollects

/-- The builders collect the pages of the lines that were read. -/
def Collected (settings : ScanSettings) (caps : PageClass → ℕ) (read : List (List Char))
    (found : Candidates) : Prop :=
  ∀ kind, ClassCollects settings (caps kind) kind (read.filterMap parseLine) (found.builders kind)

theorem collectLine_collected {settings : ScanSettings} {caps : PageClass → ℕ}
    {read : List (List Char)} {line : List Char} {found after : Candidates}
    (hfound : Collected settings caps read found)
    (h : collectLine settings caps found line = some after) :
    Collected settings caps (read ++ [line]) after := by
  unfold collectLine at h
  cases hpage : parseLine line with
  | none =>
    rw [hpage] at h
    cases h
    intro kind
    simpa [hpage] using hfound kind
  | some page =>
    rw [hpage] at h
    simp only [bind_eq_bind, bind_eq_some_iff] at h
    obtain ⟨idle, hidle, hugeIdle, hhugeIdle, incompressible, hincompressible, h⟩ := h
    cases h
    have hpages : (read ++ [line]).filterMap parseLine = read.filterMap parseLine ++ [page] := by
      simp [hpage]
    intro kind
    rw [hpages]
    cases kind with
    | idle => exact collectPage_collects (hfound .idle) hidle
    | hugeIdle => exact collectPage_collects (hfound .hugeIdle) hhugeIdle
    | incompressible => exact collectPage_collects (hfound .incompressible) hincompressible

theorem finishClass_indexes {settings : ScanSettings} {cap count : ℕ} {kind : PageClass}
    {pages : List PageState} {builder : Option Builder} {specs : List Spec}
    (hbuilder : ClassCollects settings cap kind pages builder)
    (h : finishClass settings cap builder = some (specs, count)) :
    (specIndexes specs).Sublist (classIndexes settings kind pages) ∧
      (specIndexes specs).length ≤ cap := by
  cases builder with
  | none =>
    cases h
    simp [specIndexes]
  | some collecting =>
    obtain ⟨hcap, hcollects⟩ := hbuilder collecting rfl
    obtain ⟨finished, hfinished, hspecs⟩ := map_eq_some_iff.mp h
    obtain ⟨rfl, -⟩ := Prod.mk.inj hspecs
    obtain ⟨hsub, hlength⟩ := finish_indexes hcollects hfinished
    exact ⟨hsub, hlength hcap⟩

/-- `block_state_authoritative`. -/
def Stats.blockStateAuthoritative (stats : Stats) : Bool :=
  stats.blockStateAvailable && !stats.blockStateTruncated

/-- The specifications of a complete scan name pages of their class, each at most as
often as the file has it, and at most as many as the cap admits. -/
theorem captureZramState_spec {settings : ScanSettings} {caps : PageClass → ℕ}
    {blockState : Option String} {stats : Stats}
    (h : captureZramState settings caps blockState = some stats)
    (hauthoritative : stats.blockStateAuthoritative = true) :
    ∃ content, blockState = some content ∧ ∀ kind,
      (specIndexes (stats.writebackSpecs kind)).Sublist
        (classIndexes settings kind (blockPages content)) ∧
      (specIndexes (stats.writebackSpecs kind)).length ≤ caps kind := by
  simp only [captureZramState, bind_eq_bind, bind_eq_some_iff] at h
  obtain ⟨idle, hidle, hugeIdle, hhugeIdle, incompressible, hincompressible,
    ⟨truncated, found⟩, hscan, idleSpecs, hidleSpecs, hugeIdleSpecs, hhugeIdleSpecs,
    incompressibleSpecs, hincompressibleSpecs, h⟩ := h
  cases h
  simp only [Stats.blockStateAuthoritative, Bool.and_eq_true, Bool.not_eq_true'] at hauthoritative
  obtain ⟨havailable, hcomplete⟩ := hauthoritative
  cases blockState with
  | none => cases havailable
  | some content =>
    have hinitial : Collected settings caps []
        { counts := PageCounts.zero
          builders := fun
            | .idle => idle
            | .hugeIdle => hugeIdle
            | .incompressible => incompressible } := by
      intro kind
      cases kind with
      | idle => exact classBuilder_collects .idle hidle
      | hugeIdle => exact classBuilder_collects .hugeIdle hhugeIdle
      | incompressible => exact classBuilder_collects .incompressible hincompressible
    obtain ⟨read, -, hfound, hall⟩ := scan_run
      (fun _ _ _ _ hheld hline => collectLine_collected hheld hline) hscan hinitial
    obtain rfl := hall hcomplete
    refine ⟨content, rfl, fun kind => ?_⟩
    have hkind := hfound kind
    rw [List.nil_append] at hkind
    cases kind with
    | idle => exact finishClass_indexes hkind hidleSpecs
    | hugeIdle => exact finishClass_indexes hkind hhugeIdleSpecs
    | incompressible => exact finishClass_indexes hkind hincompressibleSpecs

end Preseed.Zram
