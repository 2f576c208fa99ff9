import Preseed.NetworkSharing.Managed

/-!
# An update and the next one

The text that an update makes of a file: the formatted lines of others, and the formatted
block behind them. The next update takes that block out again and makes the same text.
-/

namespace Preseed.NetworkSharing

open List

open Ipaddress (Text)
open DesktopFirewall (isspace)

/-! ## The lines of the block -/

/-- The lines of the managed block. -/
def managedLines (entries : List Text) : List Text :=
  beginMarker :: (sharingRows entries ++ [endMarker])

theorem managedBlock_eq (entries : List Text) :
    managedBlock entries = terminated (managedLines entries) := by
  have hne : sharingRows entries ≠ [] := by
    rw [sharingRows, cons_append]
    exact cons_ne_nil _ _
  have hrows : terminated (sharingRows entries) =
      ['\n'].intercalate (sharingRows entries) ++ ['\n'] := by
    rw [← unlines_eq_terminated, unlines, if_neg hne]
  rw [managedBlock, managedLines, terminated_cons, terminated_append, hrows, terminated_cons,
    terminated_nil]
  simp only [append_assoc, cons_append, nil_append]

/-- A row of the block is one of two comments or a record. -/
theorem mem_sharingRows {entries : List Text} {line : Text} (h : line ∈ sharingRows entries) :
    line = "# Sharing bind mounts".toList ∨
      line = "# Remote NFS mount (started explicitly by nfsmnt)".toList ∨ line ∈ entries := by
  rw [sharingRows, mem_append, mem_cons] at h
  rcases h with (h | h) | h
  · exact .inl h
  · exact .inr (.inr (mem_of_mem_take h))
  · split at h
    · rcases mem_cons.1 h with h | h
      · exact .inr (.inl h)
      · exact .inr (.inr (mem_of_mem_drop h))
    · simp at h

section Rows

variable {entries : List Text}

instance (line : Text) : Decidable (IsLine line) :=
  decidable_of_iff (visible line = true ∧ line.all (!isLineEnd ·) = true) (by simp [IsLine])

instance (line : Text) : Decidable (Unmarked line) := inferInstanceAs (Decidable (_ ∧ _))

theorem sharingRows_isLine (h : ManagedEntries entries) :
    ∀ line ∈ sharingRows entries, IsLine line := by
  intro line hline
  rcases mem_sharingRows hline with rfl | rfl | hentry
  · decide
  · decide
  · exact (h.record line hentry).isLine

theorem sharingRows_accepts (h : ManagedEntries entries) :
    ∀ line ∈ sharingRows entries, Accepts line := by
  intro line hline
  rcases mem_sharingRows hline with rfl | rfl | hentry
  · exact .inl (by decide)
  · exact .inl (by decide)
  · exact .inr (h.record line hentry).valid

theorem sharingRows_unmarked (h : ManagedEntries entries) :
    ∀ line ∈ sharingRows entries, Unmarked line := by
  intro line hline
  rcases mem_sharingRows hline with rfl | rfl | hentry
  · decide
  · decide
  · exact (h.record line hentry).unmarked

theorem isComment_beginMarker : isComment beginMarker = true := by decide

theorem isComment_endMarker : isComment endMarker = true := by decide

theorem isLine_beginMarker : IsLine beginMarker := by decide

theorem isLine_endMarker : IsLine endMarker := by decide

theorem managedLines_isLine (h : ManagedEntries entries) :
    ∀ line ∈ managedLines entries, IsLine line := by
  rw [managedLines, forall_mem_cons]
  refine ⟨isLine_beginMarker, fun line hline => ?_⟩
  rcases mem_append.1 hline with hline | hline
  · exact sharingRows_isLine h line hline
  · rw [mem_singleton.1 hline]
    exact isLine_endMarker

theorem layout_managedLines (widths : Widths) (group : ℕ) (entries : List Text) :
    ∃ group', layout widths group (managedLines entries) =
      beginMarker :: (layout widths group' (sharingRows entries) ++ [endMarker]) := by
  obtain ⟨group', h⟩ := layout_append widths (group + 1) (sharingRows entries) [endMarker]
  refine ⟨group + 1, ?_⟩
  rw [managedLines, layout, if_pos isComment_beginMarker, h, layout, if_pos isComment_endMarker]
  rfl

end Rows

/-! ## The text of an update -/

/-- An update that was not refused. -/
structure Updated (s : Settings) (entries : List Text) (fstab result : Text) : Prop where
  entries_eq : fstabEntries s.values = .ok entries
  unmarked : ∀ line ∈ fileLines fstab, Unmarked line
  unowned : (pieces fstab).any (owns (entries.map destination)) = false
  format_eq : formatFstab (appendBlock fstab (managedBlock entries)) = .ok result

theorem updateFstab_of {s : Settings} {entries : List Text} {text fstab result : Text}
    (hentries : fstabEntries s.values = .ok entries)
    (hfstab : withoutManagedBlock text = .ok fstab)
    (howns : (pieces fstab).any (owns (entries.map destination)) = false)
    (hformat : formatFstab (appendBlock fstab (managedBlock entries)) = .ok result) :
    updateFstab s text = .ok result := by
  rw [updateFstab, hentries, hfstab]
  simp only [bind, Except.bind]
  rw [any_owns, howns, hformat]
  rfl

theorem updateFstab_ok {s : Settings} {text result : Text} (h : updateFstab s text = .ok result) :
    ∃ entries fstab, withoutManagedBlock text = .ok fstab ∧ Updated s entries fstab result := by
  rw [updateFstab] at h
  rcases hentries : fstabEntries s.values with e | entries
  · rw [hentries] at h
    cases h
  rcases hfstab : withoutManagedBlock text with e | fstab
  · rw [hentries, hfstab] at h
    cases h
  rw [hentries, hfstab] at h
  simp only [bind, Except.bind] at h
  rw [any_owns] at h
  split at h
  · cases h
  · rename_i howns
    exact ⟨entries, fstab, rfl, hentries, (withoutManagedBlock_ok hfstab).1,
      by simpa using howns, h⟩

theorem records_append (first second : List Entry) :
    records (first ++ second) = records first ++ records second := filterMap_append

variable {s : Settings} {entries : List Text} {fstab result : Text}

theorem entriesOf_append (lines others : List Text) :
    entriesOf (lines ++ others) = entriesOf lines ++ entriesOf others :=
  filterMap_append

theorem entriesOf_nil_line : entriesOf [[]] = [] := rfl

theorem records_managed (h : ManagedEntries entries) :
    records ((sharingRows entries).filterMap rewritten) =
      entries.map fun entry => (split isspace 6 entry).take 6 := by
  have hentries : ∀ lines : List Text, (∀ line ∈ lines, line ∈ entries) →
      records (lines.filterMap rewritten) =
        lines.map fun entry => (split isspace 6 entry).take 6 := by
    intro lines hlines
    induction lines with
    | nil => rfl
    | cons line lines ih =>
      obtain ⟨hline, hlines⟩ := forall_mem_cons.1 hlines
      have hcomment := (h.record line hline).isComment
      rw [filterMap_cons, rewritten, hcomment]
      exact congrArg (_ :: ·) (ih hlines)
  have hcomment : ∀ line : Text, isComment line = true → readLine line = some (.comment line) →
      ∀ lines : List Text, records ((line :: lines).filterMap rewritten) =
        records (lines.filterMap rewritten) := by
    intro line hcomment hread lines
    rw [filterMap_cons, rewritten, if_pos hcomment, hread]
    rfl
  rw [sharingRows, filterMap_append, records_append,
    hcomment _ (by decide) (by decide),
    hentries _ fun line hline => mem_of_mem_take hline]
  split
  · rw [hcomment _ (by decide) (by decide),
      hentries _ fun line hline => mem_of_mem_drop hline, ← map_append,
      take_append_drop]
  · rename_i hlength
    rw [take_of_length_le (by omega)]
    simp [records]

theorem mountDestination_managed (h : ManagedEntries entries) :
    (entries.map fun entry => (split isspace 6 entry).take 6).map mountDestination =
      entries.map destination := by
  rw [map_map]
  refine map_congr_left fun entry hentry => ?_
  obtain ⟨a, c, d, e, f, hsplit⟩ := (h.record entry hentry).fields
  rw [Function.comp_apply, hsplit]
  exact h.canonical_eq entry hentry

namespace Updated

variable (h : Updated s entries fstab result)

include h

theorem managed : ManagedEntries entries :=
  fstabEntries_managed s.accepted h.entries_eq

theorem layout_rows (widths : Widths) (group : ℕ) :
    ∀ line ∈ layout widths group (sharingRows entries), IsLine line ∧ Unmarked line :=
  fun line hline =>
    ⟨layout_isLine (sharingRows_isLine h.managed) (sharingRows_accepts h.managed) hline,
      layout_unmarked (sharingRows_unmarked h.managed) (sharingRows_accepts h.managed) line hline⟩

variable (hglue : visible fstab = true ∨ stripNewlines fstab = [])

include hglue

/-- The lines that are formatted, where the block is not glued to white space. -/
theorem pieces_eq :
    pieces (appendBlock fstab (managedBlock entries)) =
      pieces fstab ++ managedLines entries := by
  rw [pieces_appendBlock hglue, managedBlock_eq, pieces_terminated (managedLines_isLine h.managed)]

theorem accepts :
    ∀ line ∈ pieces fstab, Accepts line := fun line hline =>
  (formatFstab_ok h.format_eq).1 line (by
    rw [h.pieces_eq hglue]
    exact mem_append_left _ hline)

theorem form :
    ∃ widths group, result = terminated (layout widths 0 (pieces fstab) ++
      beginMarker :: (layout widths group (sharingRows entries) ++ [endMarker])) := by
  obtain ⟨-, widths, hresult⟩ := formatFstab_ok h.format_eq
  obtain ⟨group, happend⟩ := layout_append widths 0 (pieces fstab) (managedLines entries)
  obtain ⟨group', hlines⟩ := layout_managedLines widths group entries
  refine ⟨widths, group', ?_⟩
  rw [hresult, unlines_eq_terminated, h.pieces_eq hglue, happend, hlines]

/-- The formatted lines of others are lines without a marker. -/
theorem layout_pieces (widths : Widths) :
    ∀ line ∈ layout widths 0 (pieces fstab), IsLine line ∧ Unmarked line := fun line hline =>
  ⟨layout_isLine (fun _ => isLine_of_mem_pieces) (h.accepts hglue) hline,
    layout_unmarked (pieces_unmarked h.unmarked) (h.accepts hglue) line hline⟩

/-- The next update makes the same text. -/
theorem again :
    updateFstab s result = .ok result := by
  obtain ⟨widths, group, hresult⟩ := h.form hglue
  generalize hlines : layout widths 0 (pieces fstab) = lines at hresult
  have hline : ∀ line ∈ lines, IsLine line ∧ Unmarked line := hlines ▸ h.layout_pieces hglue widths
  have htaken : withoutManagedBlock result = .ok (terminated lines) := by
    rw [hresult]
    exact withoutManagedBlock_terminated (fun line hmem => (hline line hmem).2)
      fun line hmem => (h.layout_rows widths group line hmem).2
  have hpieces : pieces (terminated lines) = lines :=
    pieces_terminated fun line hmem => (hline line hmem).1
  have hrow : lines.map row = (pieces fstab).map row := by
    rw [← hlines, map_row_layout (h.accepts hglue)]
  have hglue' : visible (terminated lines) = true ∨ stripNewlines (terminated lines) = [] := by
    rcases lines with - | ⟨line, lines⟩
    · exact .inr rfl
    · left
      obtain ⟨c, hc, hspace⟩ := visible_iff.1 (hline line (by simp)).1.1
      exact visible_iff.2 ⟨c, by simp [hc], hspace⟩
  have haccepts : ∀ line ∈ pieces fstab, Accepts line := h.accepts hglue
  refine updateFstab_of h.entries_eq htaken ?_ ?_
  · rw [hpieces, ← any_owns_congr hrow.symm haccepts]
    exact h.unowned
  · rw [← h.format_eq]
    refine formatFstab_congr ?_
    rw [h.pieces_eq hglue, pieces_appendBlock hglue', hpieces, managedBlock_eq,
      pieces_terminated (managedLines_isLine h.managed), map_append, map_append, hrow]

theorem fileLines_result :
    ∃ widths group, fileLines result = layout widths 0 (pieces fstab) ++
      beginMarker :: (layout widths group (sharingRows entries) ++ endMarker :: [[]]) := by
  obtain ⟨widths, group, hresult⟩ := h.form hglue
  refine ⟨widths, group, ?_⟩
  have hlines : ∀ line ∈ layout widths 0 (pieces fstab) ++
      beginMarker :: (layout widths group (sharingRows entries) ++ [endMarker]), '\n' ∉ line := by
    intro line hline
    rcases mem_append.1 hline with hline | hline
    · exact (h.layout_pieces hglue widths line hline).1.newline_not_mem
    rcases mem_cons.1 hline with rfl | hline
    · exact newline_not_mem_beginMarker
    rcases mem_append.1 hline with hline | hline
    · exact (h.layout_rows widths group line hline).1.newline_not_mem
    · rw [mem_singleton.1 hline]
      exact newline_not_mem_endMarker
  have hfile := fileLines_terminated hlines []
  rw [append_nil, ← hresult] at hfile
  rw [hfile]
  simp [fileLines]

/-- The entries of others after the update. -/
theorem foreign_eq :
    foreign result = (pieces fstab).filterMap rewritten := by
  obtain ⟨widths, group, hfile⟩ := h.fileLines_result hglue
  rw [foreign, hfile, outside_append (fun line hline => (h.layout_pieces hglue widths line hline).2)
    (fun line hline => (h.layout_rows widths group line hline).2), entriesOf_append,
    entriesOf_nil_line, append_nil, entriesOf_layout (h.accepts hglue)]

/-- The records of the whole file after the update. -/
theorem records_eq :
    records (entriesOf (fileLines result)) = records ((pieces fstab).filterMap rewritten) ++
      entries.map fun entry => (split isspace 6 entry).take 6 := by
  obtain ⟨widths, group, hfile⟩ := h.fileLines_result hglue
  have hbegin : entriesOf [beginMarker] = [.comment beginMarker] := by decide
  have hend : entriesOf (endMarker :: [[]]) = [.comment endMarker] := by decide
  rw [hfile, ← singleton_append, entriesOf_append, entriesOf_append, entriesOf_append,
    entriesOf_layout (h.accepts hglue), entriesOf_layout (sharingRows_accepts h.managed), hbegin,
    hend, records_append, records_append, records_append, records_managed h.managed]
  simp [records]

/-- The destinations are exclusive where no record of others has one of them. -/
theorem exclusive_iff :
    Exclusive s result ↔ ∀ fields ∈ records ((pieces fstab).filterMap rewritten),
      mountDestination fields ∉ entries.map destination := by
  have hcount : ∀ target ∈ entries.map destination,
      (entries.map destination).count target = 1 := fun target htarget =>
    count_eq_one_of_mem h.managed.nodup htarget
  have hiff : ∀ target ∈ entries.map destination,
      ((records (entriesOf (fileLines result))).map mountDestination).count target ≤ 1 ↔
        target ∉ (records ((pieces fstab).filterMap rewritten)).map mountDestination := by
    intro target htarget
    rw [h.records_eq hglue, map_append, mountDestination_managed h.managed,
      count_append, hcount target htarget, ← count_eq_zero]
    omega
  constructor
  · intro hexclusive fields hfields hmem
    obtain ⟨entry, hentry, heq⟩ := mem_map.1 hmem
    have hle := hexclusive entries h.entries_eq entry hentry
    rw [h.managed.canonical_eq entry hentry, hiff _ (mem_map_of_mem hentry)] at hle
    exact hle (mem_map.2 ⟨fields, hfields, heq.symm⟩)
  · intro hfree entries' hentries' entry hentry
    obtain rfl : entries = entries' := Except.ok.inj (h.entries_eq.symm.trans hentries')
    rw [h.managed.canonical_eq entry hentry, hiff _ (mem_map_of_mem hentry)]
    intro hmem
    obtain ⟨fields, hfields, heq⟩ := mem_map.1 hmem
    exact hfree fields hfields (heq ▸ mem_map_of_mem hentry)

end Updated

end Preseed.NetworkSharing
