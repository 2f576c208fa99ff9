import Preseed.Zram.BlockState

/-!
# Reading the block state

`_scan_block_state` of `Zram::Metrics` reads `block_state` in pieces of any size, cuts them
into lines and gives the lines to its callback, up to its line limit. It is compared with a
reader of the lines of the whole file.
-/

namespace Preseed.Zram

open List

/-! ## The scan -/

/-- The result of a scan that is available, with what the callback has made of the lines. -/
structure LineScan (σ : Type) where
  state : σ
  scannedLines : ℕ
  truncated : Bool
  deriving DecidableEq

section Scan

variable {σ : Type} (lineLimit : ℕ) (callback : σ → List Char → Option σ)

/-- `substr($pending, 0, $newline + 1, '')`, if there is a newline. -/
def takeLine (pending : List Char) : Option (List Char × List Char) :=
  match pending.dropWhile (· ≠ '\n') with
  | [] => none
  | newline :: rest => some (pending.takeWhile (· ≠ '\n') ++ [newline], rest)

/-- The inner loop: the complete lines of what is pending. `$stop` is set with `truncated`. -/
def drainLines : ℕ → List Char → LineScan σ → Option (List Char × LineScan σ)
  | 0, pending, scan => some (pending, scan)
  | fuel + 1, pending, scan =>
    match takeLine pending with
    | none => some (pending, scan)
    | some (line, rest) =>
      if line.length ≤ MAX_BLOCK_STATE_LINE_BYTES then
        if lineLimit < scan.scannedLines + 1 then
          some (rest, ⟨scan.state, scan.scannedLines + 1, true⟩)
        else do
          let state ← callback scan.state line
          drainLines fuel rest ⟨state, scan.scannedLines + 1, scan.truncated⟩
      else none

/-- The outer loop. The kernel answers a read with a piece of any size that is not larger than
what is asked for, and with nothing only at the end of the file. -/
def readPieces (piece : ℕ → ℕ) :
    ℕ → ℕ → List Char → List Char → LineScan σ → Option (List Char × LineScan σ)
  | 0, _, _, pending, scan => some (pending, scan)
  | fuel + 1, number, unread, pending, scan =>
    let readSize := MAX_BLOCK_STATE_LINE_BYTES + 1 - pending.length
    if 0 < readSize then
      let chunk := unread.take (max 1 (min (piece number) readSize))
      if chunk = [] then some (pending, scan)
      else do
        let pending := pending ++ chunk
        let (pending, scan) ← drainLines lineLimit callback pending.length pending scan
        if scan.truncated then return (pending, scan)
        guard (pending.length ≤ MAX_BLOCK_STATE_LINE_BYTES)
        readPieces piece fuel (number + 1) (unread.drop chunk.length) pending scan
    else none

/-- What is done with a last line that has no newline. -/
def lastLine (pending : List Char) (scan : LineScan σ) : Option (LineScan σ) :=
  if scan.truncated ∨ pending = [] then some scan
  else if pending.length ≤ MAX_BLOCK_STATE_LINE_BYTES then
    if lineLimit < scan.scannedLines + 1 then
      some ⟨scan.state, scan.scannedLines + 1, true⟩
    else do
      let state ← callback scan.state pending
      return ⟨state, scan.scannedLines + 1, scan.truncated⟩
  else none

/-- `_scan_block_state` of a file that can be opened; every read gets at least a byte. -/
def scanBlockPieces (piece : ℕ → ℕ) (content : List Char) (state : σ) : Option (LineScan σ) := do
  guard (0 < lineLimit)
  let (pending, scan) ← readPieces lineLimit callback piece (content.length + 1) 0 content []
    ⟨state, 0, false⟩
  lastLine lineLimit callback pending scan

/-! ## The lines of a file -/

/-- A reader of the lines of a whole file. -/
def readLines : List (List Char) → LineScan σ → Option (LineScan σ)
  | [], scan => some scan
  | line :: lines, scan =>
    if line.length ≤ MAX_BLOCK_STATE_LINE_BYTES then
      if lineLimit < scan.scannedLines + 1 then
        some ⟨scan.state, scan.scannedLines + 1, true⟩
      else do
        let state ← callback scan.state line
        readLines lines ⟨state, scan.scannedLines + 1, scan.truncated⟩
    else none

end Scan

/-- A line is what precedes the newline, and the newline. -/
theorem splitLines_append_newline {word : List Char} (h : '\n' ∉ word) (rest : List Char) :
    splitLines (word ++ '\n' :: rest) = (word ++ ['\n']) :: splitLines rest := by
  induction word with
  | nil => rfl
  | cons char word ih =>
    have hchar : char ≠ '\n' := fun heq => h (heq ▸ mem_cons_self ..)
    have hword := ih fun hmem => h (mem_cons_of_mem _ hmem)
    rw [cons_append, splitLines, if_neg hchar, hword]
    rfl

/-- The first line begins with what has no newline. -/
theorem splitLines_append {word : List Char} (h : '\n' ∉ word) (hne : word ≠ [])
    (rest : List Char) :
    ∃ line lines, splitLines (word ++ rest) = (word ++ line) :: lines ∧
      (rest = [] → line = [] ∧ lines = []) := by
  induction word with
  | nil => exact absurd rfl hne
  | cons char word ih =>
    have hchar : char ≠ '\n' := fun heq => h (heq ▸ mem_cons_self ..)
    rw [cons_append, splitLines, if_neg hchar]
    by_cases hword : word = []
    · subst hword
      cases hsplit : splitLines ([] ++ rest) with
      | nil => exact ⟨[], [], rfl, fun _ => ⟨rfl, rfl⟩⟩
      | cons line lines =>
        refine ⟨line, lines, rfl, ?_⟩
        rintro rfl
        cases hsplit
    · obtain ⟨line, lines, hsplit, hend⟩ := ih (fun hmem => h (mem_cons_of_mem _ hmem)) hword
      rw [hsplit]
      exact ⟨line, lines, rfl, hend⟩

/-- The lines of a file are the file. -/
theorem flatten_splitLines (content : List Char) : (splitLines content).flatten = content := by
  induction content with
  | nil => rfl
  | cons char content ih =>
    unfold splitLines
    split
    · rw [flatten_cons, ih]
      rfl
    · cases hsplit : splitLines content with
      | nil =>
        rw [hsplit] at ih
        simp [← ih]
      | cons line lines =>
        rw [hsplit] at ih
        simp [← ih]

theorem takeLine_eq_none {pending : List Char} (h : takeLine pending = none) :
    '\n' ∉ pending := by
  unfold takeLine at h
  split at h
  · rename_i hdrop
    have hall := dropWhile_eq_nil_iff.mp hdrop
    intro hmem
    simpa using hall _ hmem
  · cases h

theorem takeLine_eq_some {pending line rest : List Char} (h : takeLine pending = some (line, rest)) :
    ∃ word, '\n' ∉ word ∧ line = word ++ ['\n'] ∧ pending = word ++ '\n' :: rest := by
  unfold takeLine at h
  split at h
  · cases h
  · rename_i newline tail hdrop
    cases h
    have hnewline : newline = '\n' := by
      have hhead := List.head?_dropWhile_not (· ≠ '\n') pending
      rw [hdrop] at hhead
      simpa using hhead
    subst hnewline
    refine ⟨pending.takeWhile (· ≠ '\n'), fun hmem => ?_, rfl, ?_⟩
    · simpa using mem_takeWhile_imp hmem
    · rw [← hdrop, takeWhile_append_dropWhile]

/-! ## The scan reads the lines -/

section Lines

variable {σ : Type} {lineLimit : ℕ} {callback : σ → List Char → Option σ}

variable {pending : List Char} {fuel : ℕ}

/-- The lines after those that the inner loop takes. -/
theorem drainLines_readLines (tail : List Char) (scan : LineScan σ) (hfuel : pending.length ≤ fuel)
    (hscan : scan.truncated = false) :
    readLines lineLimit callback (splitLines (pending ++ tail)) scan =
      (drainLines lineLimit callback fuel pending scan).bind fun drained =>
        if drained.2.truncated then some drained.2
        else readLines lineLimit callback (splitLines (drained.1 ++ tail)) drained.2 := by
  induction fuel generalizing pending scan with
  | zero =>
    obtain rfl := eq_nil_of_length_eq_zero (Nat.le_zero.mp hfuel)
    simp [drainLines, hscan]
  | succ fuel ih =>
    unfold drainLines
    cases hline : takeLine pending with
    | none => simp [hscan]
    | some pair =>
      obtain ⟨line, rest⟩ := pair
      obtain ⟨word, hword, rfl, rfl⟩ := takeLine_eq_some hline
      rw [append_assoc, cons_append, splitLines_append_newline hword, readLines]
      dsimp only
      split
      · split
        · simp
        · cases hstate : callback scan.state (word ++ ['\n']) with
          | none => rfl
          | some state =>
            have hshort : rest.length ≤ fuel := by
              simp only [length_append, length_cons] at hfuel
              omega
            exact ih ⟨state, scan.scannedLines + 1, scan.truncated⟩ hshort hscan
      · rfl

variable {scan : LineScan σ}

/-- What is left pending has no newline. -/
theorem notMem_of_drainLines {rest : List Char} {scan' : LineScan σ} (hfuel : pending.length ≤ fuel)
    (h : drainLines lineLimit callback fuel pending scan = some (rest, scan'))
    (hgoes : scan'.truncated = false) : '\n' ∉ rest := by
  induction fuel generalizing pending scan with
  | zero =>
    obtain rfl := eq_nil_of_length_eq_zero (Nat.le_zero.mp hfuel)
    obtain ⟨rfl, -⟩ := Prod.mk.inj (Option.some.inj h)
    exact not_mem_nil
  | succ fuel ih =>
    unfold drainLines at h
    cases hline : takeLine pending with
    | none =>
      rw [hline] at h
      obtain ⟨rfl, -⟩ := Prod.mk.inj (Option.some.inj h)
      exact takeLine_eq_none hline
    | some pair =>
      obtain ⟨line, after⟩ := pair
      obtain ⟨word, -, -, rfl⟩ := takeLine_eq_some hline
      rw [hline] at h
      dsimp only at h
      split at h
      · split at h
        · obtain ⟨-, rfl⟩ := Prod.mk.inj (Option.some.inj h)
          cases hgoes
        · obtain ⟨state, -, h⟩ := Option.bind_eq_some_iff.mp h
          refine ih ?_ h
          simp only [length_append, length_cons] at hfuel
          omega
      · cases h

/-- The last line is read as a line. -/
theorem lastLine_readLines (hpending : '\n' ∉ pending) (hscan : scan.truncated = false) :
    lastLine lineLimit callback pending scan =
      readLines lineLimit callback (splitLines pending) scan := by
  unfold lastLine
  by_cases hne : pending = []
  · subst hne
    rw [if_pos (Or.inr rfl)]
    rfl
  · obtain ⟨line, lines, hsplit, hend⟩ := splitLines_append hpending hne []
    obtain ⟨rfl, rfl⟩ := hend rfl
    rw [append_nil] at hsplit
    rw [if_neg (by simp [hscan, hne]), hsplit, readLines]
    split
    · split
      · rfl
      · cases callback scan.state pending <;> rfl
    · rfl

/-- A line that is too long is a failure, whatever follows. -/
theorem readLines_of_long (hpending : '\n' ∉ pending)
    (hlong : MAX_BLOCK_STATE_LINE_BYTES < pending.length) (tail : List Char) (scan : LineScan σ) :
    readLines lineLimit callback (splitLines (pending ++ tail)) scan = none := by
  have hne : pending ≠ [] := by
    rintro rfl
    exact absurd hlong (by simp)
  obtain ⟨line, lines, hsplit, -⟩ := splitLines_append hpending hne tail
  rw [hsplit, readLines, if_neg]
  rw [length_append]
  omega

/-- The outer loop and the last line read the lines of what is pending and what is unread,
however the file is cut into pieces. -/
theorem readPieces_readLines (piece : ℕ → ℕ) {number : ℕ} {unread : List Char}
    (hfuel : unread.length < fuel) (hpending : '\n' ∉ pending)
    (hshort : pending.length ≤ MAX_BLOCK_STATE_LINE_BYTES) (hscan : scan.truncated = false) :
    ((readPieces lineLimit callback piece fuel number unread pending scan).bind fun read =>
        lastLine lineLimit callback read.1 read.2) =
      readLines lineLimit callback (splitLines (pending ++ unread)) scan := by
  induction fuel generalizing number unread pending scan with
  | zero => omega
  | succ fuel ih =>
    have hsize : 0 < MAX_BLOCK_STATE_LINE_BYTES + 1 - pending.length := by omega
    rw [readPieces]
    dsimp only
    rw [if_pos hsize]
    generalize hcount : max 1 (min (piece number)
      (MAX_BLOCK_STATE_LINE_BYTES + 1 - pending.length)) = count
    have hpositive : 1 ≤ count := by omega
    split
    · rename_i hchunk
      have hunread : unread = [] := by
        rcases take_eq_nil_iff.mp hchunk with hzero | hnil
        · omega
        · exact hnil
      rw [hunread, append_nil]
      exact lastLine_readLines hpending hscan
    · rename_i hchunk
      have hdrop : unread.drop (unread.take count).length = unread.drop count := by
        rw [length_take]
        rcases Nat.le_total count unread.length with hle | hle
        · rw [Nat.min_eq_left hle]
        · rw [Nat.min_eq_right hle, drop_length, drop_eq_nil_of_le hle]
      have htext : pending ++ unread = (pending ++ unread.take count) ++ unread.drop count := by
        rw [append_assoc, take_append_drop]
      rw [hdrop, htext, drainLines_readLines (unread.drop count) scan (Nat.le_refl _) hscan]
      cases hdrain : drainLines lineLimit callback (pending ++ unread.take count).length
          (pending ++ unread.take count) scan with
      | none => rfl
      | some drained =>
        obtain ⟨rest, scan'⟩ := drained
        simp only [Option.bind_eq_bind, Option.bind_some]
        cases hgoes : scan'.truncated with
        | true => simp [lastLine, hgoes]
        | false =>
          have hrest := notMem_of_drainLines (Nat.le_refl _) hdrain hgoes
          have hless : (unread.drop count).length < fuel := by
            have hne : unread ≠ [] := by
              rintro rfl
              exact hchunk (take_nil ..)
            have := length_pos_iff.mpr hne
            rw [length_drop]
            omega
          by_cases hlong : rest.length ≤ MAX_BLOCK_STATE_LINE_BYTES
          · have hguard : guard (rest.length ≤ MAX_BLOCK_STATE_LINE_BYTES) = some () :=
              if_pos hlong
            simp only [Bool.false_eq_true, if_false, hguard, Option.bind_some]
            exact ih hless hrest hlong hgoes
          · have hguard : guard (rest.length ≤ MAX_BLOCK_STATE_LINE_BYTES) = none := if_neg hlong
            simp only [Bool.false_eq_true, if_false, hguard, Option.bind_none]
            exact (readLines_of_long hrest (Nat.lt_of_not_le hlong) _ _).symm

/-- The scan of a file in pieces is the reader of its lines. -/
theorem scanBlockPieces_eq (hlimit : 0 < lineLimit) (piece : ℕ → ℕ) (content : List Char)
    (state : σ) : scanBlockPieces lineLimit callback piece content state =
      readLines lineLimit callback (splitLines content) ⟨state, 0, false⟩ := by
  have hguard : guard (0 < lineLimit) = some () := if_pos hlimit
  unfold scanBlockPieces
  simp only [Option.bind_eq_bind, hguard, Option.bind_some]
  exact readPieces_readLines piece (Nat.lt_succ_self _) not_mem_nil (Nat.zero_le _) rfl

end Lines

/-! ## What the callback receives -/

/-- A callback that records the lines. -/
def recordLine (seen : List (List Char)) (line : List Char) : Option (List (List Char)) :=
  some (seen ++ [line])

/-- The lines that are read, up to the one after the limit, are short. -/
def ShortLines (limit : ℕ) (lines : List (List Char)) : Prop :=
  ∀ line ∈ lines.take (limit + 1), line.length ≤ MAX_BLOCK_STATE_LINE_BYTES

instance (limit : ℕ) (lines : List (List Char)) : Decidable (ShortLines limit lines) :=
  inferInstanceAs (Decidable (∀ line ∈ _, _))

theorem shortLines_cons {limit : ℕ} {line : List Char} {lines : List (List Char)} :
    ShortLines (limit + 1) (line :: lines) ↔
      line.length ≤ MAX_BLOCK_STATE_LINE_BYTES ∧ ShortLines limit lines := by
  simp [ShortLines]

theorem readLines_recordLine {lineLimit : ℕ} (lines seen : List (List Char)) (left scanned : ℕ)
    (hleft : scanned + left = lineLimit) :
    readLines lineLimit recordLine lines ⟨seen, scanned, false⟩ =
      if ShortLines left lines then
        some ⟨seen ++ lines.take left, scanned + min lines.length (left + 1),
          decide (left < lines.length)⟩
      else none := by
  induction lines generalizing seen left scanned with
  | nil => simp [readLines, ShortLines]
  | cons line lines ih =>
    rw [readLines]
    dsimp only
    by_cases hlong : line.length ≤ MAX_BLOCK_STATE_LINE_BYTES
    · rw [if_pos hlong]
      cases left with
      | zero =>
        have hshort : ShortLines 0 (line :: lines) := by simpa [ShortLines] using hlong
        rw [if_pos (by omega), if_pos hshort]
        simp
      | succ left =>
        rw [if_neg (by omega)]
        simp only [recordLine, Option.bind_eq_bind, Option.bind_some]
        rw [ih (seen ++ [line]) left (scanned + 1) (by omega)]
        simp only [shortLines_cons, hlong, true_and, take_succ_cons, length_cons,
          Nat.add_lt_add_iff_right, append_assoc, singleton_append]
        rw [show scanned + 1 + min lines.length (left + 1) =
          scanned + min (lines.length + 1) (left + 1 + 1) by omega]
    · have hnot : ¬ShortLines left (line :: lines) := fun h =>
        hlong (h line (by simp))
      rw [if_neg hlong, if_neg hnot]

theorem ne_nil_of_mem_splitLines {content line : List Char} (h : line ∈ splitLines content) :
    line ≠ [] := by
  induction content generalizing line with
  | nil => cases h
  | cons char content ih =>
    unfold splitLines at h
    split at h
    · rcases mem_cons.mp h with rfl | hmem
      · exact cons_ne_nil _ _
      · exact ih hmem
    · split at h
      · rw [mem_singleton.mp h]
        exact cons_ne_nil _ _
      · rename_i first lines hsplit
        rcases mem_cons.mp h with rfl | hmem
        · exact cons_ne_nil _ _
        · exact ih (hsplit ▸ mem_cons_of_mem _ hmem)

/-- Input follows the first lines when there are more lines. -/
theorem flatten_take_ne_iff (content : List Char) (limit : ℕ) :
    ((splitLines content).take limit).flatten ≠ content ↔ limit < (splitLines content).length := by
  have hall := flatten_splitLines content
  rw [← take_append_drop limit (splitLines content), flatten_append] at hall
  constructor
  · intro hne
    by_contra hle
    exact hne (by rw [take_of_length_le (Nat.le_of_not_lt hle), flatten_splitLines])
  · intro hlt heq
    rw [heq] at hall
    have hrest : ((splitLines content).drop limit).flatten = [] := by simpa using hall
    have hmem : (splitLines content)[limit] ∈ (splitLines content).drop limit :=
      mem_drop_iff_getElem.mpr ⟨0, by omega, by simp⟩
    have hnil := flatten_eq_nil_iff.mp hrest _ hmem
    exact ne_nil_of_mem_splitLines (getElem_mem hlt) hnil

/-- The callback gets the first lines of the file, as many as the limit allows. The scan is
truncated when more input follows, and it fails when a line is too long, up to the one that
shows that more input follows. -/
theorem block_state_scanned {lineLimit : ℕ} (hlimit : 0 < lineLimit) (piece : ℕ → ℕ)
    (content : List Char) :
    (scanBlockPieces lineLimit recordLine piece content [] = none ↔
        ∃ line ∈ (splitLines content).take (lineLimit + 1),
          MAX_BLOCK_STATE_LINE_BYTES < line.length) ∧
      ∀ scan, scanBlockPieces lineLimit recordLine piece content [] = some scan →
        scan.state = (splitLines content).take lineLimit ∧
          (scan.truncated = true ↔ scan.state.flatten ≠ content) ∧
          scan.scannedLines = min (splitLines content).length (lineLimit + 1) := by
  rw [scanBlockPieces_eq hlimit, readLines_recordLine _ [] lineLimit 0 (Nat.zero_add _)]
  constructor
  · constructor
    · intro h
      by_contra hshort
      have hall : ShortLines lineLimit (splitLines content) := by
        intro line hline
        by_contra hlong
        exact hshort ⟨line, hline, Nat.lt_of_not_le hlong⟩
      rw [if_pos hall] at h
      cases h
    · rintro ⟨line, hline, hlong⟩
      exact if_neg fun hall => absurd (hall line hline) (Nat.not_le_of_lt hlong)
  · intro scan h
    obtain ⟨-, hscan⟩ := Option.ite_none_right_eq_some.mp h
    cases hscan
    refine ⟨rfl, ?_, Nat.zero_add _⟩
    rw [decide_eq_true_iff]
    exact (flatten_take_ne_iff content lineLimit).symm

theorem block_state_scanned_two :
    ∃ scan, scanBlockPieces 1 recordLine (fun number => number + 1) "0 1 n\n2".toList [] =
      some scan ∧ scan.state = ["0 1 n\n".toList] ∧ scan.truncated = true := by
  have h := block_state_scanned (show 0 < 1 by decide) (fun number => number + 1)
    "0 1 n\n2".toList
  exact ⟨⟨["0 1 n\n".toList], 2, true⟩, by decide, (h.2 _ (by decide)).1,
    (h.2 _ (by decide)).2.1.mpr (by decide)⟩

end Preseed.Zram
