import Preseed.ManagedNetwork.Environment

/-!
# Reading a managed network environment back

A quoted value is complete at its last quote only, so its lines are joined to one
statement, and the statement gives the value back.
-/

namespace Preseed.ManagedNetwork

open List

variable {path : String} {key value rest : Text}

/-- The text of an assignment is a key. -/
def IsKey (key : Text) : Prop := key.head?.any isKeyStart = true ∧ key.all isKeyByte = true

/-- Every supported key is a key. -/
theorem isKey_of_supported (h : key ∈ supportedKeys) : IsKey key := by
  have hall : ∀ key ∈ supportedKeys,
      key.head?.any isKeyStart = true ∧ key.all isKeyByte = true := by
    decide +kernel
  exact hall key h

theorem IsKey.ne_nil (h : IsKey key) : key ≠ [] := by
  rintro rfl
  exact absurd h.1 (by decide)

/-- A byte of a key is not blank. -/
theorem not_isSpace_of_isKeyByte {c : Char} (h : isKeyByte c = true) : isSpace c = false := by
  by_contra hspace
  rw [Bool.not_eq_false, isSpace, decide_eq_true_eq] at hspace
  have hc : c = Char.ofNat c.toNat := (Char.ofNat_toNat c).symm
  simp only [mem_cons, not_mem_nil, or_false] at hspace
  rcases hspace with hn | hn | hn | hn | hn | hn <;> rw [hc, hn] at h <;> exact absurd h (by decide)

theorem splitAssignment_append (h : IsKey key) :
    splitAssignment (key ++ '=' :: rest) = some (key, rest) := by
  have hbytes : ∀ c ∈ key, isKeyByte c = true := by simpa using h.2
  unfold splitAssignment
  rw [takeWhile_append_of_pos hbytes, dropWhile_append_of_pos hbytes,
    takeWhile_cons_of_neg (by decide), dropWhile_cons_of_neg (by decide),
    append_nil]
  exact if_pos h.1

/-! ### Values -/

theorem escapeQuotes_append (u w : Text) :
    escapeQuotes (u ++ w) = escapeQuotes u ++ escapeQuotes w := flatMap_append

/-- Escaped text is read as it was. -/
theorem parseQuoted_escapeQuotes (out : Text) :
    parseQuoted true out (escapeQuotes value ++ rest) = parseQuoted true (out ++ value) rest := by
  induction value generalizing out with
  | nil => simp [escapeQuotes]
  | cons c value ih =>
    have hcons : escapeQuotes (c :: value) =
        (if c = '\'' then ['\'', '\\', '\'', '\''] else [c]) ++ escapeQuotes value := rfl
    rw [hcons]
    by_cases hc : c = '\''
    · subst hc
      simp [parseQuoted, ih]
    · simp [parseQuoted, hc, ih]

/-- Blanks at the end of an open value are outside of it for `trim`. -/
theorem rdropWhile_open (start value : Text) (hstart : start.rdropWhile isSpace = start) :
    (start ++ escapeQuotes value).rdropWhile isSpace =
      start ++ escapeQuotes (value.rdropWhile isSpace) := by
  induction value using List.reverseRecOn with
  | nil => simpa [escapeQuotes] using hstart
  | append_singleton value c ih =>
    rw [escapeQuotes_append]
    by_cases hc : c = '\''
    · subst hc
      rw [rdropWhile_concat_neg _ _ _ (by decide), escapeQuotes_append]
      change (start ++ (escapeQuotes value ++ (['\'', '\\', '\''] ++ ['\'']))).rdropWhile _ = _
      rw [← append_assoc, ← append_assoc,
        rdropWhile_concat_neg _ _ _ (by decide)]
      simp [escapeQuotes]
    · have hsingle : escapeQuotes [c] = [c] := by simp [escapeQuotes, hc]
      rw [hsingle, ← append_assoc]
      by_cases hspace : isSpace c = true
      · rw [rdropWhile_concat_pos _ _ _ hspace, rdropWhile_concat_pos _ _ _ hspace, ih]
      · rw [rdropWhile_concat_neg _ _ _ hspace, rdropWhile_concat_neg _ _ _ hspace,
          escapeQuotes_append, hsingle, append_assoc]

/-- Text between two bytes that are not blank is not trimmed. -/
theorem trim_eq_self {c d : Char} (hc : isSpace c = false) (hd : isSpace d = false)
    (text : Text) : trim (c :: text ++ [d]) = c :: text ++ [d] := by
  unfold trim
  rw [cons_append, dropWhile_cons_of_neg (by simp [hc]), ← cons_append,
    rdropWhile_concat_neg _ _ _ (by simp [hd])]

/-- A value that is closed is read back. -/
theorem parseShellValue_shellQuote : parseShellValue (shellQuote value) = .ok value := by
  unfold parseShellValue shellQuote
  rw [trim_eq_self (by decide) (by decide)]
  refine (if_pos rfl).trans ?_
  rw [cons_append, parseQuoted, parseQuoted_escapeQuotes]
  rfl

/-- A value that is still open is not complete. -/
theorem parseShellValue_open :
    parseShellValue ('\'' :: escapeQuotes value) = .error .unterminated := by
  have htrim : trim ('\'' :: escapeQuotes value) =
      '\'' :: escapeQuotes (value.rdropWhile isSpace) := by
    unfold trim
    rw [dropWhile_cons_of_neg (by decide)]
    exact rdropWhile_open ['\''] value (by decide)
  unfold parseShellValue
  rw [htrim]
  refine (if_pos rfl).trans ?_
  rw [parseQuoted, ← append_nil (escapeQuotes _), parseQuoted_escapeQuotes]
  rfl

/-! ### Lines -/

/-- The statement of an assignment. -/
def statement (key value : Text) : Text := key ++ '=' :: shellQuote value

/-- The statement up to a place in its value. -/
def openStatement (key value : Text) : Text := key ++ '=' :: '\'' :: escapeQuotes value

theorem openStatement_ne_nil (value : Text) : openStatement key value ≠ [] := by
  simp [openStatement]

/-- A key makes a line more than a comment. -/
theorem isComment_of_key (h : IsKey key) : isComment (key ++ rest) = false := by
  obtain ⟨c, cs, rfl⟩ := exists_cons_of_ne_nil h.ne_nil
  have hbyte : isKeyByte c = true := by
    have := h.2
    simp only [all_cons, Bool.and_eq_true] at this
    exact this.1
  have hspace := not_isSpace_of_isKeyByte hbyte
  have hhash : c ≠ '#' := by
    rintro rfl
    exact absurd hbyte (by decide)
  simp [isComment, hspace, hhash]

/-- An open statement is kept. -/
theorem readLine_open (h : IsKey key) {r : Reading} {line : Text}
    (hline : r.current ≠ [] ∨ isComment line = false)
    (hcurrent : (if r.current = [] then line else r.current ++ '\n' :: line) =
      openStatement key value) :
    readLine path r line = .ok ⟨r.statements, openStatement key value⟩ := by
  have hnot : ¬(r.current = [] ∧ isComment line = true) := by
    rintro ⟨hnil, hcomment⟩
    rcases hline with hline | hline
    · exact hline hnil
    · simp [hline] at hcomment
  unfold readLine
  rw [if_neg hnot]
  dsimp only
  rw [hcurrent, openStatement, splitAssignment_append h]
  dsimp only
  rw [parseShellValue_open]

/-- A closed statement is complete. -/
theorem readLine_closed (h : IsKey key) {r : Reading} {line : Text}
    (hline : r.current ≠ [] ∨ isComment line = false)
    (hcurrent : (if r.current = [] then line else r.current ++ '\n' :: line) =
      statement key value) :
    readLine path r line = .ok ⟨r.statements ++ [statement key value], []⟩ := by
  have hnot : ¬(r.current = [] ∧ isComment line = true) := by
    rintro ⟨hnil, hcomment⟩
    rcases hline with hline | hline
    · exact hline hnil
    · simp [hline] at hcomment
  have hblank : ¬(key ++ '=' :: shellQuote value).all isSpace = true := by
    simp [show isSpace '=' = false by decide]
  unfold readLine
  rw [if_neg hnot]
  dsimp only
  rw [hcurrent, statement, splitAssignment_append h]
  dsimp only
  rw [parseShellValue_shellQuote]
  dsimp only
  rw [if_neg hblank]

/-- Escaping adds no line. -/
theorem newline_mem_escapeQuotes : '\n' ∈ escapeQuotes value ↔ '\n' ∈ value := by
  simp only [escapeQuotes, mem_flatMap]
  constructor
  · rintro ⟨c, hc, hmem⟩
    split at hmem
    · exact absurd hmem (by decide)
    · rw [mem_singleton] at hmem
      exact hmem ▸ hc
  · exact fun h => ⟨_, h, by decide⟩

/-- The lines of the rest of a value complete its statement. -/
theorem foldlM_readLine_rest (h : IsKey key) (statements : List Text) (u w : Text) :
    ((escapeQuotes w ++ '\'' :: '\n' :: rest).splitOn '\n').foldlM (readLine path)
        ⟨statements, openStatement key u⟩ =
      (rest.splitOn '\n').foldlM (readLine path)
        ⟨statements ++ [statement key (u ++ '\n' :: w)], []⟩ := by
  induction hn : w.length using Nat.strong_induction_on generalizing u w with
  | _ n ih =>
    by_cases hw : '\n' ∈ w
    · obtain ⟨w₀, w₁, rfl, hw₀⟩ := eq_append_cons_of_mem hw
      have hlines : escapeQuotes (w₀ ++ '\n' :: w₁) ++ '\'' :: '\n' :: rest =
          escapeQuotes w₀ ++ '\n' :: (escapeQuotes w₁ ++ '\'' :: '\n' :: rest) := by
        rw [escapeQuotes_append, append_assoc]
        rfl
      have hread : readLine path ⟨statements, openStatement key u⟩ (escapeQuotes w₀) =
          .ok ⟨statements, openStatement key (u ++ '\n' :: w₀)⟩ := by
        refine readLine_open h (.inl (openStatement_ne_nil u)) ?_
        rw [if_neg (openStatement_ne_nil u)]
        simp [openStatement, escapeQuotes]
      rw [hlines, splitOn_append_cons_self_of_not_mem (mt newline_mem_escapeQuotes.mp hw₀),
        foldlM_cons, hread]
      have hlength : w₁.length < n := by
        rw [← hn, length_append, length_cons]
        omega
      have hrest := ih _ hlength (u ++ '\n' :: w₀) w₁ rfl
      rw [append_assoc, cons_append] at hrest
      exact hrest
    · have hplain : '\n' ∉ escapeQuotes w ++ ['\''] := by
        rw [mem_append, newline_mem_escapeQuotes, not_or]
        exact ⟨hw, by decide⟩
      have hline : escapeQuotes w ++ '\'' :: '\n' :: rest =
          (escapeQuotes w ++ ['\'']) ++ '\n' :: rest := by
        simp
      have hread : readLine path ⟨statements, openStatement key u⟩ (escapeQuotes w ++ ['\'']) =
          .ok ⟨statements ++ [statement key (u ++ '\n' :: w)], []⟩ := by
        refine readLine_closed h (.inl (openStatement_ne_nil u)) ?_
        rw [if_neg (openStatement_ne_nil u)]
        simp [openStatement, statement, shellQuote, escapeQuotes]
      rw [hline, splitOn_append_cons_self_of_not_mem hplain, foldlM_cons, hread]
      rfl

/-- The lines of an assignment complete its statement. -/
theorem foldlM_readLine_assignment (h : IsKey key) (statements : List Text) :
    ((statement key value ++ '\n' :: rest).splitOn '\n').foldlM (readLine path)
        ⟨statements, []⟩ =
      (rest.splitOn '\n').foldlM (readLine path) ⟨statements ++ [statement key value], []⟩ := by
  have hkey : '\n' ∉ key := by
    intro hmem
    have hbyte : isKeyByte '\n' = true := all_eq_true.mp h.2 _ hmem
    exact absurd hbyte (by decide)
  have hstart : ∀ text, '\n' ∉ text → '\n' ∉ openStatement key text := by
    intro text htext
    simp [openStatement, hkey, newline_mem_escapeQuotes, htext]
  by_cases hv : '\n' ∈ value
  · obtain ⟨v₀, v₁, rfl, hv₀⟩ := eq_append_cons_of_mem hv
    have hlines : statement key (v₀ ++ '\n' :: v₁) ++ '\n' :: rest =
        openStatement key v₀ ++ '\n' :: (escapeQuotes v₁ ++ '\'' :: '\n' :: rest) := by
      simp [statement, openStatement, shellQuote, escapeQuotes]
    have hread : readLine path ⟨statements, []⟩ (openStatement key v₀) =
        .ok ⟨statements, openStatement key v₀⟩ :=
      readLine_open h (.inr (isComment_of_key h)) (if_pos rfl)
    rw [hlines, splitOn_append_cons_self_of_not_mem (hstart v₀ hv₀), foldlM_cons, hread]
    exact foldlM_readLine_rest h statements v₀ v₁
  · have hline : '\n' ∉ statement key value := by
      simp [statement, shellQuote, hkey, newline_mem_escapeQuotes, hv]
    have hread : readLine path ⟨statements, []⟩ (statement key value) =
        .ok ⟨statements ++ [statement key value], []⟩ :=
      readLine_closed h (.inr (isComment_of_key h)) (if_pos rfl)
    rw [splitOn_append_cons_self_of_not_mem hline, foldlM_cons, hread]
    rfl

/-- The text of a list of assignments. -/
def environment (entries : List (Text × Text)) : Text :=
  entries.flatMap fun entry => statement entry.1 entry.2 ++ ['\n']

variable {entries : List (Text × Text)}

/-- Assignments are read as their statements. -/
theorem foldlM_readLine_environment (h : ∀ entry ∈ entries, IsKey entry.1)
    (statements : List Text) :
    ((environment entries).splitOn '\n').foldlM (readLine path) ⟨statements, []⟩ =
      .ok ⟨statements ++ entries.map fun entry => statement entry.1 entry.2, []⟩ := by
  induction entries generalizing statements with
  | nil =>
    rw [map_nil, append_nil]
    rfl
  | cons entry entries ih =>
    have hcons : environment (entry :: entries) =
        statement entry.1 entry.2 ++ '\n' :: environment entries := by
      simp [environment]
    rw [hcons, foldlM_readLine_assignment (h _ mem_cons_self),
      ih fun entry hentry => h entry (mem_cons_of_mem _ hentry)]
    simp

/-! ### Assignments -/

/-- A statement assigns its value. -/
theorem assignStatement_statement (hkey : key ∈ supportedKeys)
    (hplain : ∀ c ∈ value, isRejected c = false) (cfg : Config) :
    assignStatement path cfg (statement key value) = .ok (Function.update cfg key value) := by
  have h := isKey_of_supported hkey
  have htrim : trim (statement key value) = statement key value := by
    obtain ⟨c, cs, rfl⟩ := exists_cons_of_ne_nil h.ne_nil
    have hc := not_isSpace_of_isKeyByte (all_eq_true.mp h.2 c mem_cons_self)
    have := trim_eq_self hc (d := '\'') (by decide) (cs ++ '=' :: '\'' :: escapeQuotes value)
    simpa [statement, shellQuote] using this
  have hnot : ¬(statement key value = [] ∨ (statement key value).head? = some '#') := by
    obtain ⟨c, cs, rfl⟩ := exists_cons_of_ne_nil h.ne_nil
    have hc := all_eq_true.mp h.2 c mem_cons_self
    rintro (hnil | hhash)
    · cases hnil
    · cases hhash
      exact absurd hc (by decide)
  have hreject : ¬value.any isRejected = true := by simpa using hplain
  unfold assignStatement
  dsimp only
  rw [htrim, if_neg hnot, statement, splitAssignment_append h]
  dsimp only
  rw [if_neg (not_not_intro hkey), parseShellValue_shellQuote]
  exact if_neg hreject

/-- Statements assign their values in order. -/
theorem foldlM_assignStatement (hkeys : ∀ entry ∈ entries, entry.1 ∈ supportedKeys)
    (hplain : ∀ entry ∈ entries, ∀ c ∈ entry.2, isRejected c = false) (cfg : Config) :
    (entries.map fun entry => statement entry.1 entry.2).foldlM (assignStatement path) cfg =
      .ok (entries.foldl (fun cfg entry => Function.update cfg entry.1 entry.2) cfg) := by
  induction entries generalizing cfg with
  | nil => rfl
  | cons entry entries ih =>
    rw [map_cons, foldlM_cons, assignStatement_statement
      (hkeys _ mem_cons_self) (hplain _ mem_cons_self)]
    exact ih (fun e he => hkeys e (mem_cons_of_mem _ he))
      (fun e he => hplain e (mem_cons_of_mem _ he)) _

/-- The value that a key has after assignments: its last one, if there is one. -/
theorem foldl_update_apply (entries : List (Text × Text)) (cfg : Config) (key : Text) :
    entries.foldl (fun cfg entry => Function.update cfg entry.1 entry.2) cfg key =
      ((entries.reverse.find? fun entry => entry.1 = key).map Prod.snd).getD (cfg key) := by
  induction entries using List.reverseRecOn with
  | nil => rfl
  | append_singleton entries entry ih =>
    rw [foldl_append, foldl_cons, foldl_nil, reverse_append,
      reverse_singleton, singleton_append]
    by_cases hkey : entry.1 = key
    · rw [← hkey, Function.update_self, find?_cons_of_pos (by simp)]
      rfl
    · rw [Function.update_of_ne (Ne.symm hkey), ih, find?_cons_of_neg (by simpa using hkey)]

/-- An environment that is not too large is read as its entries. -/
theorem readInputEnv_environment (hkeys : ∀ entry ∈ entries, entry.1 ∈ supportedKeys)
    (hplain : ∀ entry ∈ entries, ∀ c ∈ entry.2, isRejected c = false)
    (hsize : (environment entries).length ≤ 65536) (cfg : Config) :
    readInputEnv path cfg (environment entries) =
      .ok (entries.foldl (fun cfg entry => Function.update cfg entry.1 entry.2) cfg) := by
  unfold readInputEnv
  rw [if_neg (by omega), foldlM_readLine_environment
    fun entry hentry => isKey_of_supported (hkeys entry hentry)]
  exact foldlM_assignStatement hkeys hplain cfg

/-- The encodings of assignments are the text of an environment. -/
theorem mapM_shellAssignment (h : ∀ entry ∈ entries, IsKey entry.1) :
    (entries.mapM fun entry => shellAssignment entry.1 entry.2).map List.flatten =
      .ok (environment entries) := by
  have hmap : (entries.mapM fun entry => shellAssignment entry.1 entry.2) =
      .ok (entries.map fun entry => statement entry.1 entry.2 ++ ['\n']) := by
    induction entries with
    | nil => rfl
    | cons entry entries ih =>
      have hentry : shellAssignment entry.1 entry.2 =
          .ok (statement entry.1 entry.2 ++ ['\n']) := if_pos (h _ mem_cons_self)
      rw [mapM_cons, hentry, ih fun e he => h e (mem_cons_of_mem _ he)]
      rfl
  rw [hmap]
  rfl

end Preseed.ManagedNetwork
