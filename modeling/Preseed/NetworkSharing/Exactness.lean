import Preseed.NetworkSharing.Update

/-!
# When an update is sound

An update keeps what others have in the file, and the next one changes nothing, exactly
where Python reads the lines outside the block as the readers of the file do.
-/

namespace Preseed.NetworkSharing

open List

open Ipaddress (Text)
open DesktopFirewall (isspace)

/-! ## The entries of one line -/

/-- The entries that an update makes of a line. -/
def outcome (line : Text) : List Entry := (pieces line).filterMap rewritten

theorem mem_records {entries : List Entry} {fields : List Text} :
    fields ∈ records entries ↔ .record fields ∈ entries := by
  induction entries with
  | nil => simp [records]
  | cons entry entries ih =>
    rw [records] at ih ⊢
    cases entry <;> simp [ih]

variable {line : Text}

theorem mem_comments {entries : List Entry} :
    line ∈ comments entries ↔ .comment line ∈ entries := by
  induction entries with
  | nil => simp [comments]
  | cons entry entries ih =>
    rw [comments] at ih ⊢
    cases entry <;> simp [ih]

theorem isComment_of_readLine {other : Text} (h : readLine line = some (.comment other)) :
    isComment line = true := by
  obtain ⟨hhead, -⟩ := readLine_comment_iff.1 h
  obtain ⟨rest, hrest⟩ := head?_eq_some_iff.1 hhead
  have hline : line = line.takeWhile isBlank ++ '#' :: rest := by
    rw [← hrest, takeWhile_append_dropWhile]
  have hgap : ∀ c ∈ line.takeWhile isBlank, isspace c = true := fun c hc =>
    isspace_of_isBlank (mem_takeWhile_imp hc)
  have hhash : isspace '#' = false := by decide
  rw [isComment, hline, dropWhile_append_of_pos hgap,
    dropWhile_cons_of_neg (by simp [hhash])]
  rfl

theorem visible_of_isComment (h : isComment line = true) : visible line = true := by
  rw [isComment, decide_eq_true_eq] at h
  exact visible_iff.2 ⟨'#', (dropWhile_suffix isspace).subset (mem_of_mem_head? h),
    by decide⟩

theorem outcome_none (h : readLine line = none) : outcome line = [] := by
  have hblank := readLine_none_iff.1 h
  have hvisible : visible line = false := by
    rw [visible, Bool.not_eq_false', all_eq_true]
    exact fun c hc => isspace_of_isBlank (hblank c hc)
  rw [outcome, pieces_eq_nil hvisible]
  rfl

theorem outcome_comment (h : readLine line = some (.comment line))
    (hline : ∀ c ∈ line, isLineEnd c = false) : outcome line = [.comment line] := by
  have hcomment := isComment_of_readLine h
  rw [outcome, pieces_of_isLine ⟨visible_of_isComment hcomment, hline⟩]
  simp [rewritten, hcomment, h]

/-- What the first piece and the other pieces make. -/
theorem outcome_eq (line : Text) (h : visible (firstPiece line) = true) :
    outcome line = (rewritten (firstPiece line)).toList ++
      ((line.splitOnP isLineEnd).tail.filter visible).filterMap rewritten := by
  have hcons : line.splitOnP isLineEnd = firstPiece line :: (line.splitOnP isLineEnd).tail :=
    Texts.splitOnP_eq_cons isLineEnd line
  rw [outcome, pieces]
  conv_lhs => rw [hcons]
  rw [filter_cons_of_pos h, filterMap_cons]
  cases rewritten (firstPiece line) <;> rfl

theorem rewritten_comment (h : readLine line = some (.comment line)) :
    rewritten line = some (.comment line) := by
  rw [rewritten, if_pos (isComment_of_readLine h), h]

section Record

variable {line : Text} {fields : List Text}

theorem firstPiece_fields (wide : Char → Bool) (hwide : ∀ c, isBlank c = true → wide c = true)
    (hread : readLine line = some (.record fields)) (hfields : Without wide fields)
    (hend : Without isLineEnd fields) :
    (split wide 6 (firstPiece line)).take 6 = fields := by
  obtain ⟨-, rfl⟩ := readLine_record_iff.1 hread
  exact split_take_agree hwide (fun c => not_isLineEnd_of_isBlank)
    fun field hfield c hc => ⟨hfields field hfield c hc, hend field hfield c hc⟩

/-- A record begins with something else than `#`. -/
theorem record_head (hread : readLine line = some (.record fields)) :
    ∃ c, fields.head?.bind List.head? = some c ∧ c ≠ '#' := by
  obtain ⟨⟨c, hhead, hc⟩, rfl⟩ := readLine_record_iff.1 hread
  refine ⟨c, ?_, hc⟩
  rw [head?_take, if_neg (by decide), split_head, hhead]

theorem head_of_take {separator : Char → Bool} {text : Text}
    (h : (split separator 6 text).take 6 = fields) :
    (text.dropWhile separator).head? = fields.head?.bind List.head? := by
  rw [← split_head separator 5, ← h, head?_take, if_neg (by decide)]

theorem rewritten_plain (hread : readLine line = some (.record fields))
    (hfields : Without isspace fields) :
    visible (firstPiece line) = true ∧ isComment (firstPiece line) = false ∧
      rewritten (firstPiece line) = some (.record fields) := by
  have hend : Without isLineEnd fields := fun field hfield c hc => by
    by_contra hne
    have := isspace_of_isLineEnd (by simpa using hne)
    simp [hfields field hfield c hc] at this
  have htake := firstPiece_fields isspace (fun c => isspace_of_isBlank) hread hfields hend
  obtain ⟨c, hhead, hc⟩ := record_head hread
  have hcomment : isComment (firstPiece line) = false := by
    rw [isComment, head_of_take htake, hhead, decide_eq_false_iff_not]
    simpa using hc
  refine ⟨visible_of_split (n := 6) fun hnil => ?_, hcomment, ?_⟩
  · rw [hnil] at htake
    simp [← htake] at hhead
  · rw [rewritten, hcomment, htake]
    rfl

theorem rewritten_verbatim (hread : readLine line = some (.record fields))
    (hcomment : isComment (firstPiece line) = true) (hend : Without isLineEnd fields) :
    rewritten (firstPiece line) = some (.record fields) := by
  obtain ⟨-, hfields⟩ := readLine_record_iff.1 hread
  have hblank : Without isBlank fields := fun field hfield c hc => by
    rw [hfields] at hfield
    exact (split_take_mem hfield).2 c hc
  have htake := firstPiece_fields isBlank (fun _ h => h) hread hblank hend
  obtain ⟨c, hhead, hc⟩ := record_head hread
  rw [rewritten, if_pos hcomment, readLine_record_iff]
  exact ⟨⟨c, by rw [head_of_take htake, hhead], hc⟩, htake.symm⟩

end Record

/-- The fields of a record that an update makes have no end of a line. -/
theorem rewritten_without {piece : Text} (h : ∀ c ∈ piece, isLineEnd c = false)
    {fields : List Text} (hrecord : rewritten piece = some (.record fields)) :
    Without isLineEnd fields := by
  have hpart : ∀ field ∈ fields, field <:+: piece := by
    rw [rewritten] at hrecord
    split at hrecord
    · obtain ⟨-, rfl⟩ := readLine_record_iff.1 hrecord
      exact fun field hfield => split_mem_isInfix (mem_of_mem_take hfield)
    · obtain rfl : _ = fields := by simpa using hrecord
      exact fun field hfield => split_mem_isInfix (mem_of_mem_take hfield)
  exact fun field hfield c hc => h c ((hpart field hfield).subset hc)

theorem mem_outcome {line : Text} {entry : Entry} (h : entry ∈ outcome line) :
    ∃ piece, IsLine piece ∧ rewritten piece = some entry := by
  obtain ⟨piece, hpiece, hentry⟩ := mem_filterMap.1 h
  exact ⟨piece, isLine_of_mem_pieces hpiece, hentry⟩

/-! ## A line that is read alike -/

theorem records_comments {pieces : List Text}
    (h : ∀ piece ∈ pieces, rewritten piece = some (.comment piece)) :
    records (pieces.filterMap rewritten) = [] := by
  induction pieces with
  | nil => rfl
  | cons piece pieces ih =>
    obtain ⟨hpiece, hpieces⟩ := forall_mem_cons.1 h
    rw [filterMap_cons, hpiece]
    exact ih hpieces

variable {destinations : List Text}

theorem ReadAlike.records_eq {line : Text} (h : ReadAlike destinations line) :
    records (outcome line) = records (readLine line).toList := by
  rw [ReadAlike] at h
  rcases hread : readLine line with - | ⟨other | fields⟩
  · rw [outcome_none hread]
    rfl
  · obtain ⟨-, rfl⟩ := readLine_comment_iff.1 hread
    rw [hread] at h
    rw [outcome_comment hread h]
    rfl
  · rw [hread] at h
    obtain ⟨hfields, htail⟩ := h
    have hrest : records (((line.splitOnP isLineEnd).tail.filter visible).filterMap rewritten) =
        [] := records_comments fun piece hpiece => by
      obtain ⟨hmem, hvisible⟩ := mem_filter.1 hpiece
      exact rewritten_comment (htail piece hmem hvisible)
    have hfirst : visible (firstPiece line) = true ∧
        rewritten (firstPiece line) = some (.record fields) := by
      rcases hfields with hplain | ⟨hcomment, hend, -⟩
      · exact ⟨(rewritten_plain hread hplain).1, (rewritten_plain hread hplain).2.2⟩
      · exact ⟨visible_of_isComment hcomment, rewritten_verbatim hread hcomment hend⟩
    rw [outcome_eq line hfirst.1, records_append, hrest, hfirst.2, append_nil]

theorem ReadAlike.comments_subset {line : Text} (h : ReadAlike destinations line) {comment : Text}
    (hread : readLine line = some (.comment comment)) : .comment comment ∈ outcome line := by
  obtain ⟨-, rfl⟩ := readLine_comment_iff.1 hread
  rw [ReadAlike, hread] at h
  rw [outcome_comment hread h]
  exact mem_singleton_self _

theorem ReadAlike.unmanaged {line : Text} (h : ReadAlike destinations line)
    (haccepts : ∀ piece ∈ pieces line, Accepts piece)
    (howns : ∀ piece ∈ pieces line, owns destinations piece = false) :
    ∀ fields ∈ records (outcome line), mountDestination fields ∉ destinations := by
  intro fields hfields
  have hread : readLine line = some (.record fields) := by
    rw [h.records_eq, mem_records, Option.mem_toList] at hfields
    exact hfields
  rw [ReadAlike, hread] at h
  rcases h.1 with hplain | ⟨-, -, hfree⟩
  · obtain ⟨hvisible, hcomment, hrewritten⟩ := rewritten_plain hread hplain
    have hmem : firstPiece line ∈ pieces line := by
      rw [pieces, Texts.splitOnP_eq_cons]
      exact mem_filter.2 ⟨mem_cons_self, hvisible⟩
    have hvalid := (haccepts _ hmem).resolve_left (by simp [hcomment])
    have hunowned := howns _ hmem
    rw [← Bool.not_eq_true, owns_iff hcomment hvalid] at hunowned
    rw [rewritten, hcomment] at hrewritten
    obtain rfl : _ = fields := by simpa using hrewritten
    simpa [mountDestination, getD_eq_getElem?_getD, getElem?_take] using hunowned
  · exact hfree

/-! ## What soundness says of a line -/

theorem length_flatMap_le {α β : Type} {f g : α → List β} {items : List α}
    (hle : ∀ item ∈ items, (f item).length ≤ (g item).length) :
    (items.flatMap f).length ≤ (items.flatMap g).length := by
  induction items with
  | nil => simp
  | cons item items ih =>
    obtain ⟨hitem, hitems⟩ := forall_mem_cons.1 hle
    have := ih hitems
    rw [flatMap_cons, flatMap_cons, length_append, length_append]
    omega

/-- Lists that are cut into pieces alike, and never shorter ones, have the same pieces. -/
theorem eq_of_flatMap_eq {α β : Type} {f g : α → List β} {items : List α}
    (hle : ∀ item ∈ items, (f item).length ≤ (g item).length)
    (h : items.flatMap f = items.flatMap g) : ∀ item ∈ items, f item = g item := by
  induction items with
  | nil => simp
  | cons item items ih =>
    obtain ⟨hitem, hitems⟩ := forall_mem_cons.1 hle
    rw [flatMap_cons, flatMap_cons] at h
    have htotal := length_flatMap_le hitems
    have hlength := congrArg List.length h
    rw [length_append, length_append] at hlength
    obtain ⟨hfirst, hrest⟩ := append_inj h (by omega)
    exact forall_mem_cons.2 ⟨hfirst, ih hitems hrest⟩

/-- Every line is read alike where the entries of all of them are kept. -/
theorem readAlike_of_kept {lines : List Text}
    (hrecords : records (lines.filterMap readLine) = records (lines.flatMap outcome))
    (hcomments : ∀ comment ∈ comments (lines.filterMap readLine),
      comment ∈ comments (lines.flatMap outcome))
    (hfree : ∀ fields ∈ records (lines.flatMap outcome), mountDestination fields ∉ destinations)
    (hvisible : ∀ line ∈ lines, ∀ fields, readLine line = some (.record fields) →
      ∃ field ∈ fields, visible field = true) :
    ∀ line ∈ lines, ReadAlike destinations line := by
  -- The fields of a record come from some line that Python sees.
  have hend : ∀ line ∈ lines, ∀ fields, readLine line = some (.record fields) →
      .record fields ∈ lines.flatMap outcome := by
    intro line hline fields hread
    rw [← mem_records, ← hrecords, mem_records]
    exact mem_filterMap.2 ⟨line, hline, hread⟩
  have hwithout : ∀ fields, .record fields ∈ lines.flatMap outcome → Without isLineEnd fields := by
    intro fields hmem
    obtain ⟨line, -, hmem⟩ := mem_flatMap.1 hmem
    obtain ⟨piece, hpiece, hrewritten⟩ := mem_outcome hmem
    exact rewritten_without hpiece.2 hrewritten
  -- So the first piece of a line with a record is visible, and makes a record.
  have hfirst : ∀ line ∈ lines, ∀ fields, readLine line = some (.record fields) →
      visible (firstPiece line) = true ∧
        ∃ made, rewritten (firstPiece line) = some (.record made) := by
    intro line hline fields hread
    have hclean := hwithout fields (hend line hline fields hread)
    have hblank : Without isBlank fields := fun field hfield c hc => by
      rw [(readLine_record_iff.1 hread).2] at hfield
      exact (split_take_mem hfield).2 c hc
    have htake := firstPiece_fields isBlank (fun _ h => h) hread hblank hclean
    obtain ⟨field, hfield, hseen⟩ := hvisible line hline fields hread
    obtain ⟨c, hc, hspace⟩ := visible_iff.1 hseen
    rw [← htake] at hfield
    refine ⟨visible_iff.2 ⟨c, (split_mem_isInfix (mem_of_mem_take hfield)).subset hc, hspace⟩,
      ?_⟩
    by_cases hcomment : isComment (firstPiece line) = true
    · exact ⟨fields, rewritten_verbatim hread hcomment hclean⟩
    · exact ⟨_, if_neg hcomment⟩
  have hsplit : ∀ lines : List Text, records (lines.flatMap outcome) =
      lines.flatMap fun line => records (outcome line) := by
    intro lines
    induction lines with
    | nil => rfl
    | cons line lines ih => rw [flatMap_cons, records_append, ih, flatMap_cons]
  have hread : ∀ lines : List Text, records (lines.filterMap readLine) =
      lines.flatMap fun line => records (readLine line).toList := by
    intro lines
    induction lines with
    | nil => rfl
    | cons line lines ih =>
      rw [filterMap_cons, flatMap_cons, ← ih, ← records_append]
      cases readLine line <;> rfl
  rw [hread, hsplit] at hrecords
  have hequal := eq_of_flatMap_eq (fun line hline => ?_) hrecords
  · intro line hline
    rw [ReadAlike]
    rcases hentry : readLine line with - | ⟨other | fields⟩
    · trivial
    · obtain ⟨-, rfl⟩ := readLine_comment_iff.1 hentry
      have hmem := hcomments other
        (mem_comments.2 (mem_filterMap.2 ⟨other, hline, hentry⟩))
      obtain ⟨line', -, hmem⟩ := mem_flatMap.1 (mem_comments.1 hmem)
      obtain ⟨piece, hpiece, hrewritten⟩ := mem_outcome hmem
      rw [rewritten] at hrewritten
      split at hrewritten
      · obtain ⟨-, rfl⟩ := readLine_comment_iff.1 hrewritten
        exact hpiece.2
      · cases hrewritten
    · obtain ⟨hseen, made, hmade⟩ := hfirst line hline fields hentry
      have hmem := hend line hline fields hentry
      have hline' := hequal line hline
      rw [hentry, outcome_eq line hseen, hmade, records_append] at hline'
      obtain ⟨hmade', hrest⟩ : fields = made ∧ [] = records
          (((line.splitOnP isLineEnd).tail.filter visible).filterMap rewritten) :=
        cons_eq_cons.1 hline'
      subst hmade'
      refine ⟨?_, fun piece hpiece hpieceSeen => ?_⟩
      · by_cases hcomment : isComment (firstPiece line) = true
        · exact .inr ⟨hcomment, hwithout fields hmem, hfree fields (mem_records.2 hmem)⟩
        · left
          rw [rewritten, if_neg hcomment] at hmade
          obtain rfl : _ = fields := by simpa using hmade
          exact fun field hfield => (split_take_mem hfield).2
      · -- Another piece of the line makes no record.
        have hnone : ∀ fields, rewritten piece ≠ some (.record fields) := by
          intro fields hrecord
          have : fields ∈ records (((line.splitOnP isLineEnd).tail.filter visible).filterMap
              rewritten) := mem_records.2 (mem_filterMap.2
                ⟨piece, mem_filter.2 ⟨hpiece, hpieceSeen⟩, hrecord⟩)
          rw [← hrest] at this
          cases this
        rw [rewritten] at hnone
        split at hnone
        · rcases hpieceRead : readLine piece with - | ⟨other | fields⟩
          · have hblank := readLine_none_iff.1 hpieceRead
            obtain ⟨c, hc, hspace⟩ := visible_iff.1 hpieceSeen
            rw [isspace_of_isBlank (hblank c hc)] at hspace
            cases hspace
          · rw [(readLine_comment_iff.1 hpieceRead).2]
          · exact absurd hpieceRead (hnone fields)
        · exact absurd rfl (hnone _)
  · rcases hentry : readLine line with - | ⟨other | fields⟩
    · exact Nat.zero_le _
    · exact Nat.zero_le _
    · obtain ⟨hseen, made, hmade⟩ := hfirst line hline fields hentry
      rw [outcome_eq line hseen, hmade, records_append, length_append]
      exact Nat.le_add_right 1 _

end Preseed.NetworkSharing
