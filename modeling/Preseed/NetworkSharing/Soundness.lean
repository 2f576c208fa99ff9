import Preseed.NetworkSharing.Exactness

/-!
# Sound updates

The exact condition for an update of `/etc/fstab` to keep what others have in it, to change
nothing when it is made again, and to own its destinations.
-/

namespace Preseed.NetworkSharing

open List

open Ipaddress (Text)
open DesktopFirewall (isspace)

/-! ## Visible texts -/

theorem mem_of_mem_fileLines {text line : Text} (h : line ∈ fileLines text) : line ⊆ text := by
  rw [fileLines, splitOn_eq_splitOnP] at h
  exact (Texts.isInfix_of_mem_splitOnP h).subset

theorem visible_iff_fileLines {text : Text} :
    visible text = true ↔ ∃ line ∈ fileLines text, visible line = true := by
  constructor
  · intro h
    obtain ⟨c, hc, hspace⟩ := visible_iff.1 h
    rcases (Ipaddress.mem_splitOn hc : c = '\n' ∨ _) with rfl | ⟨line, hline, hc⟩
    · exact absurd hspace (by decide)
    · exact ⟨line, hline, visible_iff.2 ⟨c, hc, hspace⟩⟩
  · rintro ⟨line, hline, h⟩
    obtain ⟨c, hc, hspace⟩ := visible_iff.1 h
    exact visible_iff.2 ⟨c, mem_of_mem_fileLines hline hc, hspace⟩

theorem stripNewlines_eq_nil_iff {text : Text} :
    stripNewlines text = [] ↔ ∀ line ∈ fileLines text, line = [] := by
  rw [stripNewlines, rdropWhile_eq_nil_iff]
  constructor
  · intro h line hline
    refine eq_nil_iff_forall_not_mem.2 fun c hc => ?_
    have hnewline : c = '\n' := by simpa using h c (mem_of_mem_fileLines hline hc)
    exact newline_not_mem_fileLines hline (hnewline ▸ hc)
  · intro h c hc
    rcases (Ipaddress.mem_splitOn hc : c = '\n' ∨ _) with rfl | ⟨line, hline, hc⟩
    · rfl
    · rw [h line hline] at hc
      cases hc

/-! ## A block that is glued to white space -/

theorem pieces_append_end (a b : Text) {c : Char} (hc : isLineEnd c = true) :
    pieces (a ++ c :: b) = pieces a ++ pieces b := by
  rw [pieces, splitOnP_append_cons _ _ hc, filter_append]
  rfl

/-- What is left of white space before a line. -/
def lastGap (gap : Text) : Text := gap.rtakeWhile (!isLineEnd ·)

theorem pieces_glued {gap line : Text} (hgap : visible gap = false) (hline : IsLine line) :
    pieces (gap ++ line) = [lastGap gap ++ line] := by
  have hparts : gap.rdropWhile (!isLineEnd ·) ++ lastGap gap = gap :=
    rdropWhile_append_rtakeWhile
  have hlast : pieces (lastGap gap ++ line) = [lastGap gap ++ line] := by
    refine pieces_of_isLine ⟨?_, fun c hc => ?_⟩
    · obtain ⟨c, hc, hspace⟩ := visible_iff.1 hline.1
      exact visible_iff.2 ⟨c, mem_append_right _ hc, hspace⟩
    · rcases mem_append.1 hc with hc | hc
      · simpa using mem_rtakeWhile_imp hc
      · exact hline.2 c hc
  by_cases hnil : gap.rdropWhile (!isLineEnd ·) = []
  · rw [hnil, nil_append] at hparts
    rw [hparts] at hlast ⊢
    exact hlast
  · have hend := rdropWhile_last_not _ _ hnil
    have hconcat := dropLast_append_getLast hnil
    generalize gap.rdropWhile (!isLineEnd ·) = before at *
    have hinvisible : visible before.dropLast = false := by
      by_contra hvisible
      obtain ⟨c, hc, hspace⟩ := visible_iff.1 (by simpa using hvisible)
      have : visible gap = true := visible_iff.2 ⟨c, by
        rw [← hparts]
        exact mem_append_left _ (( dropLast_prefix _).subset hc), hspace⟩
      rw [hgap] at this
      cases this
    have hgap' : gap ++ line = before.dropLast ++ before.getLast hnil :: (lastGap gap ++ line) := by
      conv_lhs => rw [← hparts, ← hconcat]
      simp
    rw [hgap', pieces_append_end _ _ (by simpa using hend), pieces_eq_nil hinvisible,
      nil_append, hlast]

/-- The lines that are formatted where the block is glued to white space. -/
theorem pieces_appendBlock_glued {entries : List Text} (h : ManagedEntries entries)
    {fstab : Text} (hvisible : visible fstab = false) :
    pieces (appendBlock fstab (managedBlock entries)) =
      (lastGap (stripNewlines fstab) ++ beginMarker) :: (sharingRows entries ++ [endMarker]) := by
  have hgap : visible (stripNewlines fstab) = false := by
    by_contra hseen
    obtain ⟨c, hc, hspace⟩ := visible_iff.1 (by simpa using hseen)
    have : visible fstab = true :=
      visible_iff.2 ⟨c, ( rdropWhile_prefix _ _).subset hc, hspace⟩
    rw [hvisible] at this
    cases this
  have hlines := managedLines_isLine h
  rw [managedLines, forall_mem_cons] at hlines
  rw [appendBlock, hvisible, managedBlock_eq, managedLines, terminated_cons]
  simp only [Bool.false_eq_true, if_false, append_nil]
  rw [← append_assoc, pieces_append, pieces_glued hgap hlines.1, pieces_terminated hlines.2]
  rfl

theorem isComment_glued {gap : Text} (h : ∀ c ∈ gap, isspace c = true) :
    isComment (gap ++ beginMarker) = true := by
  rw [isComment, dropWhile_append_of_pos h]
  exact isComment_beginMarker

/-- A glued block is not taken out again. -/
theorem withoutManagedBlock_glued {gap rest : Text} (hne : gap ≠ [])
    (hgap : '\n' ∉ gap) (result : Text) :
    withoutManagedBlock (gap ++ beginMarker ++ '\n' :: rest) ≠ .ok result := by
  intro h
  have hline : '\n' ∉ gap ++ beginMarker := by
    rw [mem_append]
    exact fun hc => hc.elim hgap newline_not_mem_beginMarker
  have hfile : fileLines (gap ++ beginMarker ++ '\n' :: rest) =
      (gap ++ beginMarker) :: fileLines rest :=
    splitOn_append_cons_self_of_not_mem hline rest
  have hmarked : ¬ Unmarked (gap ++ beginMarker) := fun hunmarked =>
    (hunmarked.of_isInfix (suffix_append gap beginMarker).isInfix).ne_beginMarker rfl
  rcases withoutManagedBlock_cases h with ⟨hunmarked, -⟩ | ⟨hbegin, hend, m, -⟩
  · exact hmarked (hunmarked.fileLines _ (by rw [hfile]; simp))
  · have hlines : ∀ line ∈ m.before ++ beginMarker :: m.block, '\n' ∉ line := by
      intro line hline
      rcases mem_append.1 hline with hline | hline
      · exact m.before_line line hline
      rcases mem_cons.1 hline with rfl | hline
      · exact newline_not_mem_beginMarker
      · exact m.block_line line hline
    have heq := hfile
    rw [m.eq, fileLines_terminated hlines] at heq
    have hunmarked := (m.unmarked hbegin hend).1
    rcases hbefore : m.before with - | ⟨first, before⟩
    · rw [hbefore] at heq
      have hfirst : beginMarker = gap ++ beginMarker := (cons_eq_cons.1 heq).1
      have hlength := congrArg List.length hfirst
      rw [length_append] at hlength
      exact hne (length_eq_zero_iff.1 (by omega))
    · rw [hbefore] at heq hunmarked
      have hfirst : first = gap ++ beginMarker := (cons_eq_cons.1 heq).1
      exact hmarked (hfirst ▸ hunmarked first (by simp))

/-! ## Refused updates -/

theorem pieces_visible {text : Text} (h : pieces text ≠ []) : visible text = true := by
  by_contra hvisible
  exact h (pieces_eq_nil (by simpa using hvisible))

theorem not_refused {s : Settings} {text result : Text} (h : updateFstab s text = .ok result) :
    ¬ Refused s text := by
  obtain ⟨entries, fstab, hfstab, hupdated⟩ := updateFstab_ok h
  rw [Refused, hupdated.entries_eq, hfstab]
  rintro ⟨line, hline, hvisible, hrefused⟩
  have hpiece : line ∈ pieces fstab := by
    rw [← splitlines_visible]
    exact mem_filter.2 ⟨hline, hvisible⟩
  rcases hrefused with howns | ⟨hcomment, hinvalid⟩
  · have := any_eq_false.1 hupdated.unowned line hpiece
    exact this howns
  · have hglue : visible fstab = true := pieces_visible (ne_nil_of_mem hpiece)
    rcases hupdated.accepts (.inl hglue) line hpiece with h | h
    · rw [hcomment] at h
      cases h
    · rw [hinvalid] at h
      cases h

theorem exists_ok {s : Settings} {text : Text} (h : ¬ Refused s text) :
    ∃ result, updateFstab s text = .ok result := by
  rw [Refused] at h
  rcases hentries : fstabEntries s.values with e | entries
  · simp [hentries] at h
  rcases hfstab : withoutManagedBlock text with e | fstab
  · simp [hentries, hfstab] at h
  simp only [hentries, hfstab, not_exists, not_and, not_or] at h
  have hmanaged := fstabEntries_managed s.accepted hentries
  have hpiece : ∀ line ∈ pieces fstab, owns (entries.map destination) line = false ∧
      Accepts line := by
    intro line hline
    rw [← splitlines_visible] at hline
    obtain ⟨hmem, hvisible⟩ := mem_filter.1 hline
    obtain ⟨howns, hvalid⟩ := h line hmem hvisible
    refine ⟨by simpa using howns, ?_⟩
    by_cases hcomment : isComment line = true
    · exact .inl hcomment
    · exact .inr (by simpa using hvalid (by simpa using hcomment))
  have hrows : ∀ line ∈ sharingRows entries ++ [endMarker], Accepts line := by
    intro line hline
    rcases mem_append.1 hline with hline | hline
    · exact sharingRows_accepts hmanaged line hline
    · rw [mem_singleton.1 hline]
      exact .inl isComment_endMarker
  have haccepts : ∀ line ∈ pieces (appendBlock fstab (managedBlock entries)), Accepts line := by
    by_cases hvisible : visible fstab = true
    · rw [pieces_appendBlock (.inl hvisible), managedBlock_eq,
        pieces_terminated (managedLines_isLine hmanaged)]
      intro line hline
      rcases mem_append.1 hline with hline | hline
      · exact (hpiece line hline).2
      rcases mem_cons.1 hline with rfl | hline
      · exact .inl isComment_beginMarker
      · exact hrows line hline
    · have hvisible : visible fstab = false := by simpa using hvisible
      rw [pieces_appendBlock_glued hmanaged hvisible, forall_mem_cons]
      refine ⟨.inl (isComment_glued fun c hc => ?_), hrows⟩
      have hc : c ∈ stripNewlines fstab := (rtakeWhile_suffix _ _).subset hc
      rw [visible, Bool.not_eq_false', all_eq_true] at hvisible
      exact hvisible c (( rdropWhile_prefix _ _).subset hc)
  obtain ⟨widths, hwidths⟩ := (measure_ok_iff _ 0 fun _ _ => 0).2 haccepts
  refine ⟨_, updateFstab_of hentries hfstab ?_ (by rw [formatFstab_eq, hwidths]; rfl)⟩
  rw [any_eq_false]
  exact fun line hline howns => by simp [(hpiece line hline).1] at howns

/-! ## Sound updates -/

section Lines

variable {text fstab : Text}

section

variable (h : withoutManagedBlock text = .ok fstab)
include h

theorem outside_lines {P : Text → Prop} (hP : P []) :
    (∀ line ∈ fileLines fstab, P line) ↔ ∀ line ∈ outside (fileLines text), P line := by
  rcases (withoutManagedBlock_ok h).2 with heq | heq
  · rw [heq]
  · rw [heq, forall_mem_append, forall_mem_singleton]
    exact ⟨fun h => h.1, fun h => ⟨h, hP⟩⟩

/-- The entries that an update makes of the lines outside the block. -/
theorem filterMap_pieces :
    (pieces fstab).filterMap rewritten = (outside (fileLines text)).flatMap outcome := by
  have hlines : (pieces fstab).filterMap rewritten = (fileLines fstab).flatMap outcome := by
    rw [pieces_eq_flatMap, filterMap_flatMap]
    rfl
  rcases (withoutManagedBlock_ok h).2 with heq | heq
  · rw [hlines, heq]
  · rw [hlines, heq, flatMap_append]
    exact append_nil _

theorem mem_pieces_outside {line piece : Text}
    (hline : line ∈ outside (fileLines text)) (hpiece : piece ∈ pieces line) :
    piece ∈ pieces fstab := by
  rw [pieces_eq_flatMap, mem_flatMap]
  rcases (withoutManagedBlock_ok h).2 with heq | heq
  · exact ⟨line, heq ▸ hline, hpiece⟩
  · exact ⟨line, by rw [heq]; exact mem_append_left _ hline, hpiece⟩

end

end Lines

/-- What lines that are read alike have is kept. -/
theorem kept_of_readAlike {destinations lines : List Text}
    (h : ∀ line ∈ lines, ReadAlike destinations line) :
    records (lines.flatMap outcome) = records (lines.filterMap readLine) ∧
      ∀ comment ∈ comments (lines.filterMap readLine),
        comment ∈ comments (lines.flatMap outcome) := by
  constructor
  · induction lines with
    | nil => rfl
    | cons line lines ih =>
      obtain ⟨hline, hlines⟩ := forall_mem_cons.1 h
      rw [flatMap_cons, records_append, ih hlines, hline.records_eq, ← records_append,
        filterMap_cons]
      cases readLine line <;> rfl
  · intro comment hcomment
    obtain ⟨line, hline, hread⟩ := mem_filterMap.1 (mem_comments.1 hcomment)
    exact mem_comments.2 (mem_flatMap.2 ⟨line, hline, (h line hline).comments_subset hread⟩)

theorem Undisturbed.sound {s : Settings} {text : Text} (h : Undisturbed s text) :
    Sound s text := by
  intro result hresult
  obtain ⟨entries, fstab, hfstab, hupdated⟩ := updateFstab_ok hresult
  have halike := h.alike entries hupdated.entries_eq
  have hglue : visible fstab = true ∨ stripNewlines fstab = [] := by
    by_cases hvisible : visible fstab = true
    · exact .inl hvisible
    · right
      rw [stripNewlines_eq_nil_iff, outside_lines (P := fun line => line = []) hfstab rfl]
      refine h.empty ((outside_lines (P := fun line => visible line = false) hfstab rfl).1
        fun line hline => ?_)
      by_contra hseen
      exact hvisible (visible_iff_fileLines.2 ⟨line, hline, by simpa using hseen⟩)
  have hkept := kept_of_readAlike halike
  refine ⟨?_, hupdated.again hglue, ?_⟩
  · rw [Preserves, hupdated.foreign_eq hglue, filterMap_pieces hfstab, foreign]
    exact hkept
  · rw [hupdated.exclusive_iff hglue, filterMap_pieces hfstab]
    intro fields hfields
    obtain ⟨line, hline, hmem⟩ := mem_flatMap.1 (mem_records.1 hfields)
    refine (halike line hline).unmanaged (fun piece hpiece => ?_) (fun piece hpiece => ?_) fields
      (mem_records.2 hmem)
    · exact hupdated.accepts hglue piece (mem_pieces_outside hfstab hline hpiece)
    · simpa using any_eq_false.1 hupdated.unowned piece
        (mem_pieces_outside hfstab hline hpiece)

theorem Sound.undisturbed {s : Settings} {text result : Text} (h : Sound s text)
    (hresult : updateFstab s text = .ok result) (hvisible : VisibleRecords text) :
    Undisturbed s text := by
  obtain ⟨hpreserves, hagain, hexclusive⟩ := h result hresult
  obtain ⟨entries, fstab, hfstab, hupdated⟩ := updateFstab_ok hresult
  by_cases hglue : visible fstab = true ∨ stripNewlines fstab = []
  · rw [Preserves, hupdated.foreign_eq hglue, filterMap_pieces hfstab, foreign] at hpreserves
    rw [hupdated.exclusive_iff hglue, filterMap_pieces hfstab] at hexclusive
    refine ⟨fun entries' hentries' => ?_, fun hblank => ?_⟩
    · obtain rfl := Except.ok.inj (hupdated.entries_eq.symm.trans hentries')
      exact readAlike_of_kept hpreserves.1.symm hpreserves.2 hexclusive hvisible
    · have hinvisible : ¬ visible fstab = true := by
        rw [visible_iff_fileLines]
        rintro ⟨line, hline, hseen⟩
        have := (outside_lines (P := fun line => visible line = false) hfstab rfl).2 hblank line
          hline
        rw [this] at hseen
        cases hseen
      exact (outside_lines (P := fun line => line = []) hfstab rfl).1
        (stripNewlines_eq_nil_iff.1 (hglue.resolve_left hinvisible))
  · -- A glued block is not taken out by the next update.
    exfalso
    rw [not_or, Bool.not_eq_true] at hglue
    obtain ⟨hunseen, hne⟩ := hglue
    have hmanaged := hupdated.managed
    have hblank : ∀ line ∈ fileLines fstab, ∀ c ∈ line, isBlank c = true := by
      have hlines : ∀ line ∈ outside (fileLines text), line ∈ fileLines fstab := by
        intro line hline
        rcases (withoutManagedBlock_ok hfstab).2 with heq | heq
        · rwa [heq]
        · rw [heq]
          exact mem_append_left _ hline
      refine (outside_lines hfstab (by simp)).2 fun line hline => ?_
      have hline' : visible line = false := by
        by_contra hseen
        have := visible_iff_fileLines.2 ⟨line, hlines line hline, by simpa using hseen⟩
        rw [hunseen] at this
        cases this
      rcases hread : readLine line with - | ⟨other | fields⟩
      · exact readLine_none_iff.1 hread
      · rw [visible_of_isComment (isComment_of_readLine hread)] at hline'
        cases hline'
      · obtain ⟨field, hfield, hseen⟩ := hvisible line hline fields hread
        obtain ⟨c, hc, hspace⟩ := visible_iff.1 hseen
        rw [(readLine_record_iff.1 hread).2] at hfield
        have : visible line = true := visible_iff.2
          ⟨c, (split_mem_isInfix (mem_of_mem_take hfield)).subset hc, hspace⟩
        rw [hline'] at this
        cases this
    have hgap : ∀ c ∈ stripNewlines fstab, c ≠ '\n' → isBlank c = true := by
      intro c hc hnewline
      have hc : c ∈ fstab := ( rdropWhile_prefix _ _).subset hc
      rcases (Ipaddress.mem_splitOn hc : c = '\n' ∨ _) with heq | ⟨line, hline, hc⟩
      · exact absurd heq hnewline
      · exact hblank line hline c hc
    have hlast : lastGap (stripNewlines fstab) ≠ [] := by
      rw [lastGap, Ne, rtakeWhile_eq_nil_iff]
      intro h
      have hend : (stripNewlines fstab).getLast hne ≠ '\n' := by
        exact fun heq => rdropWhile_last_not _ _ hne (decide_eq_true heq)
      have hc := hgap _ (getLast_mem hne) hend
      exact h hne (by simpa using not_isLineEnd_of_isBlank hc)
    have hlastBlank : ∀ c ∈ lastGap (stripNewlines fstab), isBlank c = true := by
      intro c hc
      refine hgap c ((rtakeWhile_suffix _ _).subset hc) ?_
      rintro rfl
      have := mem_rtakeWhile_imp hc
      simp [isLineEnd_newline] at this
    obtain ⟨-, widths, hform⟩ := formatFstab_ok hupdated.format_eq
    rw [pieces_appendBlock_glued hmanaged hunseen, layout, if_pos (isComment_glued fun c hc =>
      isspace_of_isBlank (hlastBlank c hc)), unlines_eq_terminated, terminated_cons] at hform
    obtain ⟨-, taken, htaken, -⟩ := updateFstab_ok hagain
    rw [hform] at htaken
    refine withoutManagedBlock_glued hlast (fun hc => ?_) taken htaken
    exact absurd (hlastBlank _ hc) (by decide)

/-- An update that is not refused is sound where the lines outside the block are read alike and
no white space is left alone, and only there unless a record is white space only. -/
theorem fstab_update_sound (s : Settings) (text : Text) :
    (Refused s text ∨ Undisturbed s text → Sound s text) ∧
      (VisibleRecords text → Sound s text → Refused s text ∨ Undisturbed s text) := by
  constructor
  · rintro (hrefused | hundisturbed)
    · exact fun result hresult => absurd hrefused (not_refused hresult)
    · exact hundisturbed.sound
  · intro hvisible hsound
    by_cases hrefused : Refused s text
    · exact .inl hrefused
    · obtain ⟨result, hresult⟩ := exists_ok hrefused
      exact .inr (hsound.undisturbed hresult hvisible)

/-- Settings with neither role enabled. -/
def exampleValues : Values where
  nfsClientEnable := "false".toList
  nfsClientReadOnly := "false".toList
  networkSharingRootPath := "/srv/sharing".toList
  nfsServerPath := "/srv/sharing/server".toList
  nfsClientPath := "/srv/sharing/client".toList
  accountHome := "/home/user".toList
  networkSharingHomeBindPath := "Sharing".toList
  nfsServerPort := "2049".toList
  nfsClientMountTimeout := "15".toList
  nfsClientTargetIp := "192.168.1.2".toList
  nfsClientExportPath := ['/']
  nfsClientVersion := "4.2".toList
  nfsMntClientTargetShareOpts := [','].intercalate ["rw".toList, "hard".toList,
    "proto=tcp".toList, "port=2049".toList, "resvport".toList, "sec=sys".toList,
    "vers=4.2".toList, "nosuid".toList, "nodev".toList, "noexec".toList, "nofail".toList,
    "x-systemd.requires=nfs-client.target".toList,
    "x-systemd.requires=nftables.service".toList,
    "x-systemd.requires=network-sharing-identity.service".toList, "_netdev".toList,
    "noauto".toList, "x-systemd.mount-timeout=15s".toList]

theorem exampleValues_accepted : exampleValues.Accepted where
  bools := by decide
  root := by decide
  base := by decide
  sources := by decide
  inside := by decide
  apart := by decide
  home := by decide
  bind := by decide
  port := by decide
  timeout := by decide
  target := by decide
  exported := by decide
  version := by decide
  options := by decide +kernel
  mode := by decide

/-- A comment with a line separator in it. -/
def separatedComment : Text :=
  "# note".toList ++ Char.ofNat 0x2028 :: "/dev/sdb1 /mnt ext4 defaults 0 0".toList ++ ['\n']

/-- Behind a line separator in a comment, the rest of the comment becomes a record. -/
theorem comment_becomes_record : ¬ ∀ s text, ValidRecords text → Sound s text := by
  intro h
  have hvalid : ValidRecords separatedComment := by
    have hlines : ((fileLines separatedComment).all fun line =>
        records (readLine line).toList = []) = true := by decide
    intro line hline fields hread
    have := List.all_eq_true.1 hlines line hline
    rw [hread] at this
    cases this
  have hchanged : ∃ result, updateFstab ⟨exampleValues, exampleValues_accepted⟩ separatedComment =
      .ok result ∧ records (foreign result) ≠ records (foreign separatedComment) := by
    have heval : ((updateFstab ⟨exampleValues, exampleValues_accepted⟩
        separatedComment).toOption.any fun result =>
          records (foreign result) ≠ records (foreign separatedComment)) = true := by
      decide +kernel
    rcases hresult : updateFstab ⟨exampleValues, exampleValues_accepted⟩ separatedComment with
      e | result
    · rw [hresult] at heval
      cases heval
    · rw [hresult] at heval
      exact ⟨result, rfl, by simpa [Except.toOption] using heval⟩
  obtain ⟨result, hresult, hne⟩ := hchanged
  exact hne (h _ _ hvalid result hresult).1.1

end Preseed.NetworkSharing
