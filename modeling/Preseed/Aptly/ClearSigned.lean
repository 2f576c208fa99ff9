import Preseed.Aptly.SignedRelease

/-!
# Clear-signed messages

The frame of the clear-text signature framework: a first line, armor headers, an empty
line, dash-escaped text and one signature block. A message whose fields are read is such a
frame in one way, with nothing around it, and the fields are those of its signed text.
-/

namespace Preseed.Aptly

open Texts List

/-! ## The frame -/

/-- A line of dash-escaped text. -/
def Escaped (line : Bytes) : Prop :=
  newline ∉ line ∧ (ascii "-" <+: line → ascii "- " <+: line)

/-- A line of the signature's armor. -/
structure ArmorLine (line : Bytes) : Prop where
  oneLine : newline ∉ line
  noBegin : ¬beginArmor <:+: line
  noEnd : ¬endSignature <:+: line

/-- The parts of a clear-signed message. -/
@[ext]
structure ClearSigned where
  hashes : List Bytes
  body : List Bytes
  armor : List Bytes
  /-- The last line has a newline. -/
  ended : Bool
  hashes_ne : hashes ≠ []
  body_ne : body ≠ []
  hash : ∀ line ∈ hashes, newline ∉ line ∧ hashHeader <+: line
  escaped : ∀ line ∈ body, Escaped line
  armored : ∀ line ∈ armor, ArmorLine line

namespace ClearSigned

variable (message : ClearSigned)

def lines : List Bytes :=
  beginMessage :: (message.hashes ++ [] :: (message.body ++ beginSignature ::
    (message.armor ++ endSignature :: if message.ended then [[]] else [])))

def text : Bytes := [newline].intercalate message.lines

/-- The signed text, without its escapes. -/
def signed : List Bytes :=
  message.body.map fun line => if ascii "- " <+: line then line.drop 2 else line

end ClearSigned

theorem newline_not_mem_lines (message : ClearSigned) :
    ∀ line ∈ message.lines, newline ∉ line := by
  intro line hline
  have hmarkers : newline ∉ beginMessage ∧ newline ∉ beginSignature ∧ newline ∉ endSignature := by
    decide
  simp only [ClearSigned.lines, mem_cons, mem_append] at hline
  rcases hline with rfl | hhash | rfl | hbody | rfl | harmor | rfl | hlast
  · exact hmarkers.1
  · exact (message.hash line hhash).1
  · exact not_mem_nil
  · exact (message.escaped line hbody).1
  · exact hmarkers.2.1
  · exact (message.armored line harmor).oneLine
  · exact hmarkers.2.2
  · split at hlast
    · obtain rfl := mem_singleton.mp hlast
      exact not_mem_nil
    · cases hlast

theorem splitOn_text (message : ClearSigned) : message.text.splitOn newline = message.lines :=
  splitOn_intercalate newline (newline_not_mem_lines message) (cons_ne_nil _ _)

/-- A text is a clear-signed message in at most one way. -/
theorem ClearSigned.text_injective {message other : ClearSigned} (h : message.text = other.text) :
    message = other := by
  have hlines : message.lines = other.lines := by
    rw [← splitOn_text, ← splitOn_text, h]
  have hhash (message : ClearSigned) : [] ∉ message.hashes := by
    intro hmem
    have hstart := (message.hash [] hmem).2
    exact absurd (prefix_nil.mp hstart) (by decide)
  have hbody (message : ClearSigned) : beginSignature ∉ message.body := by
    intro hmem
    have hescaped := (message.escaped beginSignature hmem).2 (by decide)
    exact absurd hescaped (by decide)
  have harmor (message : ClearSigned) : endSignature ∉ message.armor := by
    intro hmem
    exact (message.armored endSignature hmem).noEnd (infix_refl _)
  simp only [ClearSigned.lines, List.cons.injEq, true_and] at hlines
  obtain ⟨hhashes, hrest⟩ := append_cons_inj (hhash message) (hhash other) hlines
  obtain ⟨hbodies, hrest⟩ := append_cons_inj (hbody message) (hbody other) hrest
  obtain ⟨harmors, hlast⟩ := append_cons_inj (harmor message) (harmor other) hrest
  have hended : message.ended = other.ended := by
    cases hmessage : message.ended <;> cases hother : other.ended <;>
      simp [hmessage, hother] at hlast ⊢
  exact ClearSigned.ext hhashes hbodies harmors hended

/-! ## The fields of a text -/

/-- What is read of the lines of a text. -/
structure ReadFields (lines : List Text) (fields : List (Text × Text)) : Prop where
  /-- Every line is a field or a continuation. -/
  formed : ∀ line ∈ lines, isContinuation line = true ∨ ∃ field, fieldOf line = some field
  /-- The first line is no continuation. -/
  begins : ∀ line ∈ lines.head?, isContinuation line = false
  /-- No field is repeated. -/
  once : ((lines.filterMap fieldOf).map Prod.fst).Nodup
  /-- A field of the identity has one line. -/
  single : ∀ before line next after name value, lines = before ++ line :: next :: after →
    fieldOf line = some (name, value) → name ∈ identityFields → isContinuation next = false
  values : ∀ name value, (name, value) ∈ fields ↔
    name ∈ identityFields ∧ ∃ line ∈ lines, ∃ raw, fieldOf line = some (name, raw) ∧
      value = strip raw

/-- The variables of the loop after these lines. -/
structure Scanned (lines : List Text) (scan : ReleaseScan) : Prop where
  read : ReadFields lines scan.fields
  seen : scan.seen = (lines.filterMap fieldOf).map Prod.fst
  current : ∀ before line name value, lines = before ++ [line] →
    fieldOf line = some (name, value) → scan.current = some name
  nothing : scan.current = none ↔ lines = []

theorem Scanned.start : Scanned [] ⟨none, [], []⟩ where
  read := ⟨by simp, by simp, by simp, by simp, by simp⟩
  seen := rfl
  current before line name value h := by simp at h
  nothing := by simp

variable {line : Text}

/-- A continuation has no name. -/
theorem fieldOf_continuation (h : isContinuation line = true) :
    fieldOf line = none := by
  cases line with
  | nil => cases h
  | cons first line =>
    have hfirst : first ≠ ':' ∧ first.isAlpha = false := by
      have hspace : first = ' ' ∨ first = '\t' := by simpa [isContinuation] using h
      rcases hspace with rfl | rfl <;> decide
    have hkey : (first :: line).takeWhile (· ≠ ':') = first :: line.takeWhile (· ≠ ':') := by
      rw [takeWhile_cons_of_pos (by simpa using hfirst.1)]
    have hname : isFieldName (first :: line.takeWhile (· ≠ ':')) = false := by
      rw [isFieldName, hfirst.2]
      rfl
    unfold fieldOf
    rw [hkey]
    simp only [hname]
    split <;> rfl

variable {lines : List Text}

/-- The last two lines of a text that is one line longer. -/
theorem split_last_two {before after : List Text} {last next : Text}
    (h : lines ++ [last] = before ++ line :: next :: after) :
    (lines = before ++ [line] ∧ next = last) ∨
      ∃ rest, lines = before ++ line :: next :: rest := by
  rcases eq_nil_or_concat after with rfl | ⟨rest, final, rfl⟩
  · left
    have hsplit : lines ++ [last] = (before ++ [line]) ++ [next] := by simpa using h
    obtain ⟨hlines, hlast⟩ := append_inj' hsplit rfl
    exact ⟨hlines, (List.cons.inj hlast).1.symm⟩
  · right
    have hsplit : lines ++ [last] = (before ++ line :: next :: rest) ++ [final] := by
      simpa using h
    exact ⟨rest, (append_inj' hsplit rfl).1⟩

theorem head?_append_singleton {first : Text}
    (h : first ∈ (lines ++ [line]).head?) : first ∈ lines.head? ∨ (lines = [] ∧ first = line) := by
  cases lines with
  | nil =>
    right
    exact ⟨rfl, by simpa using h.symm⟩
  | cons other lines =>
    left
    exact h

variable {scan : ReleaseScan}

/-- A continuation changes nothing. -/
theorem Scanned.continuation {current : Text} (h : Scanned lines scan)
    (hline : isContinuation line = true) (hcurrent : scan.current = some current)
    (hfield : current ∉ identityFields) :
    Scanned (lines ++ [line]) scan := by
  have hnone := fieldOf_continuation hline
  have hsame : (lines ++ [line]).filterMap fieldOf = lines.filterMap fieldOf := by
    simp [filterMap_append, hnone]
  have hne : lines ≠ [] := by
    intro hempty
    rw [h.nothing.mpr hempty] at hcurrent
    cases hcurrent
  refine ⟨⟨?_, ?_, ?_, ?_, ?_⟩, ?_, ?_, ?_⟩
  · intro other hother
    rcases mem_append.mp hother with hold | hnew
    · exact h.read.formed other hold
    · obtain rfl := mem_singleton.mp hnew
      exact Or.inl hline
  · intro first hfirst
    rcases head?_append_singleton hfirst with hold | ⟨hempty, -⟩
    · exact h.read.begins first hold
    · exact absurd hempty hne
  · rw [hsame]
    exact h.read.once
  · intro before other next after name value hsplit hother hname
    rcases split_last_two hsplit with ⟨hlines, rfl⟩ | ⟨rest, hlines⟩
    · have hlast := h.current before other name value hlines hother
      rw [hcurrent] at hlast
      cases hlast
      exact absurd hname hfield
    · exact h.read.single before other next rest name value hlines hother hname
  · intro name value
    rw [h.read.values]
    constructor
    · rintro ⟨hname, other, hother, hraw⟩
      exact ⟨hname, other, mem_append_left _ hother, hraw⟩
    · rintro ⟨hname, other, hother, raw, hraw, hvalue⟩
      rcases mem_append.mp hother with hold | hnew
      · exact ⟨hname, other, hold, raw, hraw, hvalue⟩
      · obtain rfl := mem_singleton.mp hnew
        rw [hnone] at hraw
        cases hraw
  · rw [hsame]
    exact h.seen
  · intro before other name value hsplit hother
    obtain ⟨-, hlast⟩ := append_inj' hsplit rfl
    obtain rfl := (List.cons.inj hlast).1
    rw [hnone] at hother
    cases hother
  · rw [hcurrent]
    simp

/-- A field that was not seen before. -/
theorem Scanned.field {current value : Text} (h : Scanned lines scan)
    (hline : isContinuation line = false) (hfield : fieldOf line = some (current, value))
    (hseen : current ∉ scan.seen) :
    Scanned (lines ++ [line])
      { current := some current
        seen := scan.seen ++ [current]
        fields :=
          if current ∈ identityFields then scan.fields ++ [(current, strip value)]
          else scan.fields } := by
  have hmore : ((lines ++ [line]).filterMap fieldOf).map Prod.fst = scan.seen ++ [current] := by
    rw [filterMap_append, map_append, h.seen]
    simp [hfield]
  refine ⟨⟨?_, ?_, ?_, ?_, ?_⟩, ?_, ?_, ?_⟩
  · intro other hother
    rcases mem_append.mp hother with hold | hnew
    · exact h.read.formed other hold
    · obtain rfl := mem_singleton.mp hnew
      exact Or.inr ⟨_, hfield⟩
  · intro first hfirst
    rcases head?_append_singleton hfirst with hold | ⟨-, rfl⟩
    · exact h.read.begins first hold
    · exact hline
  · rw [hmore]
    apply List.Nodup.append
    · rw [h.seen]
      exact h.read.once
    · exact nodup_singleton _
    · simpa using hseen
  · intro before other next after name value hsplit hother hname
    rcases split_last_two hsplit with ⟨-, rfl⟩ | ⟨rest, hlines⟩
    · exact hline
    · exact h.read.single before other next rest name value hlines hother hname
  · intro name other
    have hold := h.read.values name other
    have hnew : (name ∈ identityFields ∧ ∃ l ∈ lines ++ [line], ∃ raw,
        fieldOf l = some (name, raw) ∧ other = strip raw) ↔
        (name, other) ∈ scan.fields ∨
          (current ∈ identityFields ∧ (name, other) = (current, strip value)) := by
      rw [hold]
      constructor
      · rintro ⟨hname, l, hl, raw, hraw, hvalue⟩
        rcases mem_append.mp hl with hl | hl
        · exact Or.inl ⟨hname, l, hl, raw, hraw, hvalue⟩
        · obtain rfl := mem_singleton.mp hl
          rw [hfield] at hraw
          cases hraw
          exact Or.inr ⟨hname, by rw [hvalue]⟩
      · rintro (⟨hname, l, hl, hraw⟩ | ⟨hname, hpair⟩)
        · exact ⟨hname, l, mem_append_left _ hl, hraw⟩
        · obtain ⟨rfl, rfl⟩ := Prod.mk.inj hpair
          have hlast := mem_append_right lines (mem_singleton_self line)
          exact ⟨hname, line, hlast, value, hfield, rfl⟩
    rw [hnew]
    by_cases hidentity : current ∈ identityFields
    · simp only [hidentity, if_true, true_and, mem_append, mem_singleton]
    · simp only [hidentity, if_false, false_and, or_false]
  · exact hmore.symm
  · intro before other name raw hsplit hother
    obtain ⟨-, hlast⟩ := append_inj' hsplit rfl
    obtain rfl := (List.cons.inj hlast).1
    rw [hfield] at hother
    obtain ⟨rfl, -⟩ := Prod.mk.inj (Option.some.inj hother)
    rfl
  · simp

theorem Scanned.step {after : ReleaseScan} (h : Scanned lines scan)
    (hstep : scanText scan line = some after) :
    Scanned (lines ++ [line]) after := by
  unfold scanText at hstep
  split at hstep
  · rename_i hline
    split at hstep
    · cases hstep
    · rename_i current hcurrent
      split at hstep
      · cases hstep
      · rename_i hfield
        cases hstep
        exact h.continuation hline hcurrent hfield
  · rename_i hline
    simp only [Option.bind_eq_bind, Option.bind_eq_some_iff, Option.guard_eq_some'] at hstep
    obtain ⟨⟨current, value⟩, hfield, _, hseen, hstep⟩ := hstep
    cases hstep
    exact h.field (by simpa using hline) hfield hseen

/-- The lines of a body that is read, and what they say. -/
theorem scanLines {raws : List Bytes} {after : ReleaseScan} (h : Scanned lines scan)
    (hscan : raws.foldlM scanLine scan = some after) :
    ∃ texts, raws.mapM (fun raw => (unescape raw).bind decodeUtf8) = some texts ∧
      Scanned (lines ++ texts) after := by
  induction raws generalizing lines scan with
  | nil =>
    cases hscan
    exact ⟨[], rfl, by simpa using h⟩
  | cons raw raws ih =>
    simp only [foldlM_cons, scanLine, Option.bind_eq_bind, Option.bind_eq_some_iff] at hscan
    obtain ⟨between, ⟨unescaped, hunescaped, line, hline, hstep⟩, hrest⟩ := hscan
    obtain ⟨texts, htexts, hscanned⟩ := ih (h.step hstep) hrest
    refine ⟨line :: texts, ?_, ?_⟩
    · rw [mapM_cons, hunescaped, Option.bind_some, hline, htexts]
      rfl
    · simpa using hscanned

/-! ## The frame of a message that is read -/

/-- The armor headers follow the first line. -/
theorem headerLines {normalized headers message : Bytes}
    (hstart : beginMessage ++ [newline] <+: normalized)
    (hcut : cut [newline, newline] normalized = some (headers, message)) :
    headers.splitOn newline = beginMessage :: (splitlines headers).drop 1 := by
  have hnormalized := eq_of_cut hcut
  have hfirst : ∃ rest, normalized.splitOn newline = beginMessage :: rest := by
    obtain ⟨rest, hrest⟩ := hstart
    rw [← hrest, append_assoc]
    exact ⟨_, splitOn_append_cons_self_of_not_mem (by decide) rest⟩
  obtain ⟨first, lines, hlines⟩ := exists_cons_of_ne_nil (splitOn_ne_nil newline headers)
  have hbegin : first = beginMessage := by
    obtain ⟨rest, hrest⟩ := hfirst
    rw [hnormalized, cons_append, splitOn_append_cons_self, hlines] at hrest
    exact (List.cons.inj hrest).1
  subst hbegin
  have hlast : (headers.splitOn newline).getLast? ≠ some [] := by
    intro hempty
    obtain ⟨others, hothers⟩ := getLast?_eq_some_iff.mp hempty
    cases others with
    | nil =>
      rw [hothers] at hlines
      exact absurd (List.cons.inj hlines).1 (by decide)
    | cons other others =>
      obtain ⟨before, hbefore⟩ := eq_concat_of_splitOn hothers
      refine not_before_cut hcut hbefore (cons_ne_nil _ _) ⟨newline :: message, ?_⟩
      rfl
  have hkept : splitlines headers = headers.splitOn newline := by
    unfold splitlines
    exact if_neg hlast
  rw [hkept, hlines]
  rfl

/-- The lines of a body, with the blank ones at the end that are not read. -/
theorem bodyLines (body : Bytes) :
    ∃ blank, body.splitOn newline =
      (body.rdropWhile (· = newline)).splitOn newline ++ List.replicate blank [] := by
  refine ⟨(body.rtakeWhile (· = newline)).length, ?_⟩
  have hblank : body.rtakeWhile (· = newline) =
      List.replicate (body.rtakeWhile (· = newline)).length newline := by
    apply eq_replicate_of_mem
    intro byte hbyte
    have hall := mem_rtakeWhile_imp hbyte
    simpa using hall
  rw [← splitOn_append_replicate, ← hblank, rdropWhile_append_rtakeWhile]

/-- The last line of a signature. -/
theorem signatureLines {signature : Bytes}
    (hend : (newline :: (endSignature ++ [newline])).isSuffixOf signature ∨
      (newline :: endSignature).isSuffixOf signature) :
    ∃ (armor : Bytes) (ended : Bool), signature = armor ++ newline :: (endSignature ++
      if ended then [newline] else []) := by
  rcases hend with hend | hend
  · obtain ⟨armor, harmor⟩ := isSuffixOf_iff_suffix.mp hend
    exact ⟨armor, true, harmor.symm⟩
  · obtain ⟨armor, harmor⟩ := isSuffixOf_iff_suffix.mp hend
    refine ⟨armor, false, ?_⟩
    rw [← harmor]
    simp

/-- A marker that is counted once is not in the armor before it. -/
theorem no_end_in_armor {armor tail : Bytes}
    (hcount : occurrences endSignature (armor ++ newline :: (endSignature ++ tail)) = 1) :
    ¬endSignature <:+: armor := by
  intro hwithin
  have harmor := occurrences_pos (by decide) hwithin
  have hlast : 0 < occurrences endSignature (endSignature ++ tail) :=
    occurrences_pos (by decide) (prefix_append _ _).isInfix
  unfold occurrences at *
  rw [countFrom_append_cons (by decide) (by decide) (Nat.zero_le _)] at hcount
  omega

theorem escaped_of_unescape {raw unescaped : Bytes} (h : unescape raw = some unescaped) :
    (ascii "-" <+: raw → ascii "- " <+: raw) ∧
      unescaped = if ascii "- " <+: raw then raw.drop 2 else raw := by
  unfold unescape at h
  simp only [ isPrefixOf_iff_prefix] at h
  split at h
  · rename_i hescape
    cases h
    exact ⟨fun _ => hescape, (if_pos hescape).symm⟩
  · rename_i hescape
    split at h
    · cases h
    · rename_i hdash
      cases h
      exact ⟨fun hstart => absurd hstart hdash, (if_neg hescape).symm⟩

/-- The lines that are read are escaped, and they are decoded with the blank ones. -/
theorem unescaped_lines {raws : List Bytes} {texts : List Text}
    (h : raws.mapM (fun raw => (unescape raw).bind decodeUtf8) = some texts) (blank : ℕ) :
    (∀ raw ∈ raws ++ List.replicate blank [], ascii "-" <+: raw → ascii "- " <+: raw) ∧
      ((raws ++ List.replicate blank []).map fun raw =>
        if ascii "- " <+: raw then raw.drop 2 else raw).mapM decodeUtf8 =
        some (texts ++ List.replicate blank []) := by
  induction raws generalizing texts with
  | nil =>
    obtain rfl : texts = [] := by simpa using h.symm
    constructor
    · intro raw hraw hstart
      obtain rfl := eq_of_mem_replicate hraw
      exact absurd (prefix_nil.mp hstart) (by decide)
    · have hempty : ¬ascii "- " <+: ([] : Bytes) := by
        rw [prefix_nil]
        decide
      induction blank with
      | zero => rfl
      | succ blank ih =>
        simp only [nil_append, replicate_succ, map_cons, if_neg hempty,
          mapM_cons] at ih ⊢
        rw [ih]
        rfl
  | cons raw raws ih =>
    simp only [mapM_cons, Option.bind_eq_bind, Option.bind_eq_some_iff] at h
    obtain ⟨line, ⟨unescaped, hunescaped, hline⟩, rest, hrest, h⟩ := h
    cases h
    obtain ⟨hdash, hsigned⟩ := escaped_of_unescape hunescaped
    obtain ⟨hescaped, hdecoded⟩ := ih hrest
    constructor
    · intro other hother
      rcases mem_cons.mp hother with rfl | hother
      · exact hdash
      · exact hescaped other hother
    · rw [cons_append, map_cons, ← hsigned, mapM_cons, hline, hdecoded]
      rfl

/-- What is read of a message: its frame is the only one of the text, and its fields are
those of the signed text up to the blank lines at its end. -/
structure Reads (normalized : Bytes) (fields : List (Text × Text)) (message : ClearSigned)
    (texts : List Text) (blank : ℕ) : Prop where
  frame : message.text = normalized
  only : ∀ other : ClearSigned, other.text = normalized → other = message
  signed : message.signed.mapM decodeUtf8 = some (texts ++ List.replicate blank [])
  fields : ReadFields texts fields

theorem signed_release_fields_read (data : Bytes) (fields : List (Text × Text))
    (h : signedReleaseFields data = some fields) :
    ∃ message texts blank, Reads (replaceCrlf data) fields message texts blank := by
  simp only [signedReleaseFields, Option.bind_eq_bind, Option.bind_eq_some_iff,
    Option.guard_eq_some'] at h
  obtain ⟨_, -, _, hstart, ⟨headers, message⟩, hcut, _, hne, _, hhashes, ⟨body, signature⟩,
    hbodyCut, _, hend, _, hcount, _, hbegin, scan, hscan, h⟩ := h
  cases h
  simp only at hne hhashes hbodyCut hend hcount hbegin hscan
  have hheaders := headerLines ( List.isPrefixOf_iff_prefix.mp hstart) hcut
  have hnormalized := eq_of_cut hcut
  have hmessage := eq_of_cut hbodyCut
  obtain ⟨blank, hbody⟩ := bodyLines body
  obtain ⟨armor, ended, hsignature⟩ := signatureLines hend
  obtain ⟨texts, htexts, hscanned⟩ := scanLines Scanned.start hscan
  have hread := hscanned.read
  rw [List.nil_append] at hread
  obtain ⟨hescaped, hsigned⟩ := unescaped_lines htexts blank
  rw [← hbody] at hescaped hsigned
  have hcount := hsignature ▸ hcount
  have hbegin := hsignature ▸ hbegin
  have harmored : ∀ line ∈ armor.splitOn newline, ArmorLine line := by
    intro line hline
    have hwithin := isInfix_of_mem_splitOn hline
    refine ⟨not_mem_of_mem_splitOn hline, fun hmarker => hbegin ?_, fun hmarker => ?_⟩
    · exact (hmarker.trans hwithin).trans (List.prefix_append _ _).isInfix
    · exact no_end_in_armor hcount (hmarker.trans hwithin)
  have hhash : ∀ line ∈ (splitlines headers).drop 1, newline ∉ line ∧ hashHeader <+: line := by
    intro line hline
    have hmem : line ∈ headers.splitOn newline := by
      rw [hheaders]
      exact List.mem_cons_of_mem _ hline
    exact ⟨not_mem_of_mem_splitOn hmem,
      List.isPrefixOf_iff_prefix.mp (List.all_eq_true.mp hhashes line hline)⟩
  let framed : ClearSigned :=
    { hashes := (splitlines headers).drop 1
      body := body.splitOn newline
      armor := armor.splitOn newline
      ended := ended
      hashes_ne := hne
      body_ne := List.splitOn_ne_nil newline body
      hash := hhash
      escaped := fun line hline => ⟨not_mem_of_mem_splitOn hline, hescaped line hline⟩
      armored := harmored }
  have hframe : framed.text = replaceCrlf data := by
    have hlast : (endSignature ++ if ended then [newline] else []).splitOn newline =
        endSignature :: if ended then [[]] else [] := by
      cases ended <;> decide
    have hlines : (replaceCrlf data).splitOn newline = framed.lines := by
      have hblank : (newline :: message).splitOn newline = [] :: message.splitOn newline :=
        List.splitOn_append_cons_self [] message
      have hsplit : (replaceCrlf data).splitOn newline =
          headers.splitOn newline ++ [] :: message.splitOn newline := by
        rw [hnormalized, List.cons_append, List.splitOn_append_cons_self]
        exact congrArg _ hblank
      have hrest : message.splitOn newline = body.splitOn newline ++ beginSignature ::
          signature.splitOn newline := by
        rw [hmessage, List.cons_append, List.splitOn_append_cons_self, List.append_assoc]
        exact congrArg _ (List.splitOn_append_cons_self_of_not_mem (by decide) signature)
      rw [hsplit, hheaders, hrest, hsignature, List.splitOn_append_cons_self, hlast]
      rfl
    unfold ClearSigned.text
    rw [← hlines, List.intercalate_splitOn]
  refine ⟨framed, texts, blank, hframe, fun other hother => ?_, hsigned, hread⟩
  exact ClearSigned.text_injective (hother.trans hframe.symm)

/-- A release with a list of files, which is a field of two lines. -/
def continuedRelease : ClearSigned where
  hashes := [ascii "Hash: SHA512"]
  body := [ascii "Version: s1", ascii "- Codename: forky", ascii "SHA256:", ascii " 00 1 main"]
  armor := [[], ascii "iQ=="]
  ended := true
  hashes_ne := cons_ne_nil _ _
  body_ne := cons_ne_nil _ _
  hash := by decide
  escaped := by
    show ∀ line ∈ _, newline ∉ line ∧ (ascii "-" <+: line → ascii "- " <+: line)
    decide
  armored := by
    have harmor : ∀ line ∈ [[], ascii "iQ=="],
        newline ∉ line ∧ ¬beginArmor <:+: line ∧ ¬endSignature <:+: line := by
      decide
    intro line hline
    obtain ⟨hline, hbegin, hend⟩ := harmor line hline
    exact ⟨hline, hbegin, hend⟩

theorem signed_release_fields_read_continued :
    ∃ fields message texts blank, signedReleaseFields continuedRelease.text = some fields ∧
      fields = [("version".toList, "s1".toList), ("codename".toList, "forky".toList)] ∧
      Reads (replaceCrlf continuedRelease.text) fields message texts blank := by
  have hfields : signedReleaseFields continuedRelease.text =
      some [("version".toList, "s1".toList), ("codename".toList, "forky".toList)] := by
    decide +kernel
  obtain ⟨message, texts, blank, hreads⟩ := signed_release_fields_read _ _ hfields
  exact ⟨_, message, texts, blank, hfields, rfl, hreads⟩

/-- A field of two lines is accepted. -/
theorem continued_field_accepted :
    ∃ (message : ClearSigned) (texts before after : List Text) (line next : Text)
      (field : Text × Text), message.signed.mapM decodeUtf8 = some texts ∧
      texts = before ++ line :: next :: after ∧ fieldOf line = some field ∧
      isContinuation next = true ∧ (signedReleaseFields message.text).isSome = true := by
  refine ⟨continuedRelease, ["Version: s1", "Codename: forky", "SHA256:", " 00 1 main"].map
    String.toList, ["Version: s1", "Codename: forky"].map String.toList, [], "SHA256:".toList,
    " 00 1 main".toList, ("sha256".toList, []), ?_, rfl, ?_, ?_, ?_⟩
  · decide +kernel
  · decide +kernel
  · decide +kernel
  · decide +kernel

end Preseed.Aptly
