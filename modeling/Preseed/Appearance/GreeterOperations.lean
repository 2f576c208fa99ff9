import Preseed.Appearance.GreeterRules

/-!
# The operations keep the invariant

The rules of the theme helper, the field update and the wallpaper publication.
-/

namespace Preseed.Appearance

open Effects Triple

variable {δ : Type} [DecidableEq δ] {lib : Library δ} {torn : Bool}

/-- No journal is pending. -/
def Clear (lib : Library δ) (torn : Bool) (w : Greeter δ) : Prop :=
  Sound lib torn w ∧ ∀ kind, w.journal kind = none

section Journals

variable {P R : Greeter δ → Prop} {kind : Kind} {journal stored : Journal (Name δ)}
  {w : Greeter δ}

omit [DecidableEq δ] in
/-- The pending journal of a kind that was read may be rolled back. -/
theorem Sound.holds (h : Sound lib torn w) (hstored : w.journal kind = some stored)
    (hsame : journal.Same stored) (hphase : torn = false → stored.phase = .prepared) :
    Holds lib torn kind journal w :=
  ⟨h, stored, hstored, hphase, hsame.2.2.2⟩

/-- The rule of a journal that becomes pending, or changes. -/
theorem rule_putJournal {Q : Greeter δ → Prop}
    (hpermitted : ∀ w, P w → (∀ other, other ≠ kind → w.journal other = none) ∧
      Pending lib torn w.file kind journal)
    (hQ : ∀ w, P w → Sound lib torn (w.setJournal kind (some journal)) →
      Q (w.setJournal kind (some journal)))
    (hR : ∀ w, P w → R w)
    (hfailed : ∀ w, P w → Sound lib torn (w.setJournal kind (some journal)) →
      (torn = false → kind = .fields → journal.phase ≠ .committed) →
        R (w.setJournal kind (some journal))) :
    Rule lib torn P (putJournal kind journal) (fun _ => Q) R := by
  intro s w hw
  refine ⟨hpermitted w hw, fun answer w' hstep => ?_⟩
  obtain ⟨⟨hwrites, hsettles⟩, hsound⟩ := hstep
  rcases hwrites with rfl | ⟨⟨e, rfl⟩, rfl⟩
  · cases answer with
    | ok _ => exact hQ w hw hsound
    | error e =>
      by_cases hexcluded : torn = false ∧ kind = .fields ∧ journal.phase = .committed
      · obtain ⟨rfl, rfl, hcommitted⟩ := hexcluded
        have hkept : w.setJournal .fields (some journal) = w := hsettles rfl hcommitted ⟨e, rfl⟩
        exact hkept.symm ▸ hR w hw
      · exact hfailed w hw hsound fun htorn hkind hcommitted =>
          hexcluded ⟨htorn, hkind, hcommitted⟩
  · exact hR w' hw

/-- A prepared journal becomes pending. -/
theorem rule_prepare (hphase : journal.phase = .prepared)
    (hP : ∀ w, P w → Clear lib torn w) (hpending : ∀ w, P w → Pending lib torn w.file kind journal) :
    Rule lib torn P (putJournal kind journal) (fun _ => Holds lib torn kind journal)
      (Sound lib torn) :=
  rule_putJournal (fun w hw => ⟨fun other _ => (hP w hw).2 other, hpending w hw⟩)
    (fun _ _ hsound => ⟨hsound, journal, setJournal_journal .., fun _ => hphase, .refl _⟩)
    (fun w hw => (hP w hw).1) fun _ _ hsound _ => hsound

/-- The removal of the only journal. -/
theorem rule_clearJournal
    (hP : ∀ w, P w → Sound lib torn w ∧ ∀ other, other ≠ kind → w.journal other = none) :
    Rule lib torn P (removeJournal kind) (fun _ => Clear lib torn) (Sound lib torn) := by
  intro s w hw
  refine ⟨trivial, fun answer w' hstep => ?_⟩
  rcases hstep.1.1 with rfl | ⟨⟨e, rfl⟩, rfl⟩
  · cases answer with
    | ok _ =>
      refine ⟨hstep.2, fun other => ?_⟩
      by_cases hother : other = kind
      · rw [hother]
        exact setJournal_journal kind none
      · exact (setJournal_journal_ne none hother).trans ((hP w hw).2 other hother)
    | error e => exact hstep.2
  · exact (hP w' hw).1

omit [DecidableEq δ] in
/-- Beside a pending journal there is no other. -/
theorem Holds.others (h : Holds lib torn kind journal w) (other : Kind) (hother : other ≠ kind) :
    w.journal other = none := by
  obtain ⟨hsound, stored, hstored, -⟩ := h
  by_contra hpending
  exact hother (hsound.exclusive other kind hpending (by simp [hstored]))

omit [DecidableEq δ] in
/-- A planned journal may become pending. -/
theorem Planned.pending {updates : List (Name δ × Option Bytes)}
    (h : Planned updates journal.images w.file) (hsound : Sound lib torn w)
    (hphase : journal.phase = .prepared) (hnodup : (journal.images.map Image.name).Nodup)
    (hallowed : ∀ update ∈ updates, update.1 ∈ kind.allowed)
    (hprovided : ∀ update ∈ updates, Provided lib w.file update.2)
    (howned : kind = .theme → ∃ uid, journal.caller = some uid) :
    Pending lib torn w.file kind journal where
  valid := ⟨fun image himage => ⟨hallowed _ (h.each image himage).2.1,
    (h.each image himage).2.2⟩, h.total⟩
  nodup := hnodup
  current image himage := .inl (h.each image himage).1
  committed _ hcommitted := by
    rw [hphase] at hcommitted
    cases hcommitted
  provided image himage := by
    obtain ⟨hold, hnew, -⟩ := h.each image himage
    refine ⟨?_, hprovided _ hnew⟩
    obtain ⟨sheet, hname⟩ := sheet_of_allowed (hallowed _ hnew)
    rw [← hold, show image.name = .sheet sheet from hname]
    exact hsound.provided sheet
  prepared _ := hphase
  owned := howned

omit [DecidableEq δ] in
/-- The commitment of a journal whose new images are in place. -/
theorem Pending.commit (h : Pending lib torn w.file .fields stored)
    (hperm : journal.images.Perm stored.images) (happlied : Applied journal w) :
    Pending lib torn w.file .fields { journal with phase := .committed } where
  valid := by
    refine ⟨fun image himage => h.valid.1 image (hperm.mem_iff.1 himage), ?_⟩
    have htotal : totalSize journal.images = totalSize stored.images := (hperm.map _).sum_nat
    exact htotal ▸ h.valid.2
  nodup := (hperm.map _).nodup_iff.2 h.nodup
  current image himage := .inr (happlied image himage)
  committed _ _ := happlied
  provided image himage := h.provided image (hperm.mem_iff.1 himage)
  prepared hkind := (hkind rfl).elim
  owned hkind := by cases hkind

end Journals

section Wallpaper

/-- The rule of the recovery of a wallpaper. -/
theorem rule_recoverWallpaper :
    Rule lib torn (Sound lib torn) recoverWallpaper
      (fun _ w => Sound lib torn w ∧ w.journal .wallpaper = none) (Sound lib torn) := by
  refine .bind (observing_guarded.journal .wallpaper fun _ hw => hw) fun pending => ?_
  cases pending with
  | none => exact .pure fun w hw => ⟨hw.1, hw.2.1 rfl⟩
  | some journal =>
    have hrollback : Rule lib torn (Holds lib torn .wallpaper journal) (rollback config journal)
        (fun _ => Holds lib torn .wallpaper journal) (Sound lib torn) :=
      (rule_rollback .wallpaper journal).mono (fun _ h => h) (fun _ _ h => h) fun _ h => h.1
    refine .bind ((triple_validate _ journal fun _ hw => hw.1)) fun _ =>
      bind (hrollback.before fun w hw => ?_) fun _ =>
        bind (triple_checkCurrent observing_guarded.reading false journal fun _ hw => hw.1) fun _ =>
          rule_removeJournal .wallpaper fun _ hw => hw.1
    obtain ⟨⟨hsound, -, hsome⟩, -⟩ := hw
    obtain ⟨stored, hstored, hsame⟩ := hsome journal rfl
    exact hsound.holds hstored hsame fun _ =>
      (hsound.pending _ stored hstored).prepared (by decide)

/-- The two stylesheets that the pruning has read. -/
def Cleared (lib : Library δ) (torn : Bool) (css power : Bytes) (w : Greeter δ) : Prop :=
  Clear lib torn w ∧ w.file (.sheet .gtkgreet) = some css ∧
    w.file (.sheet .gtkgreetPower) = some power

omit [DecidableEq δ] in
/-- An image whose name is not found in the stylesheets is named by none. -/
theorem Cleared.unnamed {css power : Bytes} {w : Greeter δ} (h : Cleared lib torn css power w)
    {asset : Asset δ} (hunused : ¬lib.fileName asset <:+: css ++ [10] ++ power) (sheet : Sheet)
    (text : Bytes) (htext : w.file (.sheet sheet) = some text) : ¬lib.Names text asset := by
  intro hnames
  have hname : lib.fileName asset <:+: lib.reference asset := List.infix_append ..
  cases sheet with
  | gtkgreet =>
    obtain rfl : css = text := Option.some.inj (h.2.1.symm.trans htext)
    refine hunused ((hname.trans hnames).trans ?_)
    rw [List.append_assoc]
    exact (List.prefix_append ..).isInfix
  | gtkgreetPower =>
    obtain rfl : power = text := Option.some.inj (h.2.2.symm.trans htext)
    exact hunused ((hname.trans hnames).trans (List.suffix_append ..).isInfix)

theorem rule_pruneEntry (css power : Bytes) (entry : Name δ) :
    Rule lib torn (Cleared lib torn css power) (pruneEntry lib (css ++ [10] ++ power) entry)
      (fun _ => Cleared lib torn css power) (Sound lib torn) := by
  cases entry with
  | sheet sheet => exact .pure fun _ hw => hw
  | other name => exact .pure fun _ hw => hw
  | asset asset =>
    refine .ite (fun _ => .pure fun _ hw => hw) fun hunused => ?_
    refine rule_write (fun w hw => ⟨hw.1.2, hw.unnamed hunused⟩) (fun w hw hsound => ?_)
      (fun _ hw => hw.1.1) fun _ _ hsound => hsound
    refine ⟨⟨hsound, hw.1.2⟩, ?_, ?_⟩
    · rw [setFile_file_ne none (by simp)]
      exact hw.2.1
    · rw [setFile_file_ne none (by simp)]
      exact hw.2.2

theorem rule_prune (css power : Bytes) (count : ℕ) (entries : List (Name δ)) :
    Rule lib torn (Cleared lib torn css power) (prune lib (css ++ [10] ++ power) count entries)
      (fun _ => Cleared lib torn css power) (Sound lib torn) := by
  induction entries generalizing count with
  | nil => exact .pure fun _ hw => hw
  | cons entry entries ih =>
    exact .ite (fun _ => .raise fun _ hw => hw.1.1) fun _ =>
      bind (rule_pruneEntry css power entry) fun _ => ih (count + 1)

/-- The rule of the pruning. -/
theorem rule_pruneAssets :
    Rule lib torn (Clear lib torn) (pruneAssets lib) (fun _ => Clear lib torn)
      (Sound lib torn) := by
  refine .bind (observing_guarded.file (.sheet .gtkgreet) maxText fun _ hw => hw.1) fun css =>
    bind (observing_guarded.file (.sheet .gtkgreetPower) maxText fun _ hw => hw.1.1) fun power =>
      bind (rule_scan fun _ hw => hw.1.1.1) fun entries => ?_
  exact (rule_prune css power 0 entries).mono (fun _ hw => ⟨hw.1.1, hw.1.2, hw.2⟩)
    (fun _ _ hw => hw.1) fun _ hw => hw

/-- The rule of the storage of an image. -/
theorem rule_storeAsset {asset : Asset δ} {data : Bytes} (hstates : lib.States asset data) :
    Rule lib torn (Clear lib torn) (storeAsset asset data)
      (fun _ w => Clear lib torn w ∧ Present lib w.file asset) (Sound lib torn) := by
  refine .bind (observing_guarded.reading _ _ (.asset asset) maxBytes fun _ hw => hw.1) fun existing => ?_
  cases existing with
  | none =>
    exact rule_write (fun _ _ => hstates) (fun w hw hsound => ⟨⟨hsound, hw.1.2⟩, data,
      setFile_file .., hstates⟩) (fun _ hw => hw.1.1) fun _ _ hsound => hsound
  | some stored =>
    refine .ite (fun hsame => .pure fun w hw => ?_) fun _ =>
      raise fun _ hw => hw.1.1
    subst hsame
    exact ⟨hw.1, stored, hw.2.1.symm, hstates⟩

theorem rule_undoPublication (journal : Journal (Name δ)) (e : Fault) {Q : Unit → Greeter δ → Prop} :
    Rule lib torn (Holds lib torn .wallpaper journal) (undoPublication journal e) Q
      (Sound lib torn) := by
  have hundo : Rule lib torn (Holds lib torn .wallpaper journal) (do
      rollback config journal
      checkCurrent config false journal
      removeJournal .wallpaper) (fun _ => Sound lib torn) (Sound lib torn) :=
    bind ((rule_rollback .wallpaper journal).mono (fun _ h => h) (fun _ _ h => h) fun _ h => h.1) fun _ =>
      bind (triple_checkCurrent observing_guarded.reading false journal fun _ hw => hw.1) fun _ =>
        (rule_removeJournal .wallpaper fun _ hw => hw.1).mono (fun _ h => h) (fun _ _ hw => hw.1)
          fun _ h => h
  exact .bind (.handle hundo fun _ => .raise fun _ hw => hw) fun _ =>
    raise fun _ hw => hw

/-- The rule of the publication of the stylesheet. -/
theorem rule_publishSheet (hlib : lib.Lawful) (asset : Asset δ) (token : ℕ) :
    Rule lib torn (fun w => Clear lib torn w ∧ Present lib w.file asset)
      (publishSheet lib asset token) (fun _ => Sound lib torn) (Sound lib torn) := by
  refine .bind (observing_guarded.file (.sheet .gtkgreet) maxImageBytes fun _ hw => hw.1.1)
    fun css => .bind (.lift (Q := fun text w =>
      Clear lib torn w ∧ Provided lib w.file (some text)) (fun text w htext hw => ?_)
        fun _ hw => hw.1.1.1) fun text =>
      bind (triple_plan observing_guarded.reading _ token fun _ hw => hw.1.1) fun journal => ?_
  · obtain ⟨⟨hclear, hpresent⟩, hcss⟩ := hw
    refine ⟨hclear, ?_⟩
    rintro _ other ⟨⟩ hnames
    rcases hlib css asset text htext other hnames with hold | rfl
    · exact hclear.1.provided .gtkgreet css other hcss hold
    · exact hpresent
  refine .assume (p := journal.phase = .prepared) (fun _ hw => hw.2.1) fun hphase =>
    bind (rule_prepare hphase (fun _ hw => hw.1.1) fun w hw => ?_) fun _ => ?_
  · obtain ⟨⟨hclear, hprovided⟩, -, -, hplanned, hsub⟩ := hw
    refine hplanned.pending hclear.1 hphase (hsub.nodup (by simp)) ?_ ?_ fun h => by cases h
    · rintro update hupdate
      obtain rfl := List.mem_singleton.1 hupdate
      exact List.mem_singleton.2 rfl
    · rintro update hupdate
      obtain rfl := List.mem_singleton.1 hupdate
      exact hprovided
  · have happly : Rule lib torn (Holds lib torn .wallpaper journal) (do
        apply config journal
        checkCommitted config journal) (fun _ => Holds lib torn .wallpaper journal)
        (Holds lib torn .wallpaper journal) :=
      bind ((rule_apply .wallpaper journal).mono (fun _ h => h) (fun _ _ hw => hw.1) fun _ h => h) fun _ =>
        triple_checkCommitted observing_guarded.reading journal fun _ hw => hw
    exact .bind (.handle happly fun e => rule_undoPublication journal e) fun _ =>
      (rule_removeJournal .wallpaper fun _ hw => hw.1).mono (fun _ h => h) (fun _ _ hw => hw.1)
        fun _ h => h

theorem rule_publishAsset (hlib : lib.Lawful) (data : Bytes) (token : ℕ) :
    Rule lib torn (fun w => Sound lib torn w ∧ w.journal .wallpaper = none)
      (publishAsset lib data token) (fun _ => Sound lib torn) (Sound lib torn) := by
  refine .bind (observing_guarded.refuse .theme fun _ hw => hw.1) fun _ =>
    bind (observing_guarded.refuse .fields fun _ hw => hw.1.1) fun _ =>
      bind (.lift (Q := fun suffix w => Clear lib torn w ∧
        imageSuffix data = .ok suffix) (fun suffix w hsuffix hw => ⟨⟨hw.1.1.1, ?_⟩, hsuffix⟩)
          fun _ hw => hw.1.1.1) fun suffix => ?_
  · rintro (_ | _ | _)
    · exact hw.1.2
    · exact hw.2
    · exact hw.1.1.2
  refine .assume (p := imageSuffix data = .ok suffix) (fun _ hw => hw.2) fun hsuffix => ?_
  exact .bind (rule_pruneAssets.before fun _ hw => hw.1) fun _ =>
    bind (rule_storeAsset ⟨rfl, hsuffix⟩) fun _ => rule_publishSheet hlib _ token

/-- The rule of `publish`. -/
theorem rule_publish (hlib : lib.Lawful) (data : Bytes) (token : ℕ) :
    Rule lib torn (Sound lib torn) (publish lib data token) (fun _ => Sound lib torn)
      (Sound lib torn) :=
  bind rule_recoverWallpaper fun _ => rule_publishAsset hlib data token

end Wallpaper

section Candidates

variable {P R : Greeter δ → Prop}

/-- The rule of the new texts. -/
theorem rule_candidates (edits : Edits lib) (hP : ∀ w, P w → Sound lib torn w)
    (hR : ∀ w, P w → R w) :
    Rule lib torn P (candidates edits) (fun updates w => P w ∧
      updates.map Prod.fst = edits.edits.map (fun edit => .sheet edit.1) ∧
        ∀ update ∈ updates, Provided lib w.file update.2) R := by
  have hloop := fold (ε := Fault) (E := guarded lib torn) (G := Permitted lib torn)
    (σ := Unit) (R := R) (l := edits.edits) (f := candidate) (b := [])
    (fun rest updates w => P w ∧ updates.map Prod.fst ++ rest.map (fun edit => .sheet edit.1) =
      edits.edits.map (fun edit => .sheet edit.1) ∧
        (∀ update ∈ updates, Provided lib w.file update.2) ∧ ∀ edit ∈ rest, edit ∈ edits.edits) ?_
  · exact hloop.mono (fun w hw => ⟨hw, rfl, by simp, fun _ h => h⟩)
      (fun updates w hw => ⟨hw.1, by simpa using hw.2.1, hw.2.2.1⟩) fun _ h => h
  intro edit rest updates
  refine .bind (observing_guarded.file (.sheet edit.1) maxText fun w hw => hR w hw.1) fun raw => ?_
  refine .bind (.lift (Q := fun text w => (P w ∧ updates.map Prod.fst ++
    (edit :: rest).map (fun edit => .sheet edit.1) =
      edits.edits.map (fun edit => .sheet edit.1) ∧
        (∀ update ∈ updates, Provided lib w.file update.2) ∧
          ∀ other ∈ edit :: rest, other ∈ edits.edits) ∧ Provided lib w.file (some text))
            (fun text w htext hw => ⟨hw.1, ?_⟩) fun w hw => hR w hw.1.1) fun text =>
              pure fun w hw => ?_
  · rintro _ asset ⟨⟩ hnames
    exact (hP w hw.1.1).provided edit.1 raw asset hw.2
      (edits.names edit (hw.1.2.2.2 edit (List.mem_cons_self ..)) raw text htext asset hnames)
  · obtain ⟨⟨hw, hnames, hprovided, hrest⟩, hnew⟩ := hw
    refine ⟨hw, by simpa using hnames, fun update hupdate => ?_,
      fun other hother => hrest other (List.mem_cons_of_mem _ hother)⟩
    rcases List.mem_append.1 hupdate with hupdate | hupdate
    · exact hprovided update hupdate
    · obtain rfl := List.mem_singleton.1 hupdate
      exact hnew

omit [DecidableEq δ] in
/-- The new texts are for different stylesheets. -/
theorem Edits.sheets_nodup (edits : Edits lib) :
    (edits.edits.map (fun edit => (.sheet edit.1 : Name δ))).Nodup := by
  have hnames : (edits.edits.map Prod.fst).map (fun sheet => (.sheet sheet : Name δ)) =
      edits.edits.map (fun edit => .sheet edit.1) := by
    simp
  rw [← hnames]
  exact edits.nodup.map fun _ _ h => Name.sheet.inj h

omit [DecidableEq δ] in
theorem mem_sheets (sheet : Sheet) : (.sheet sheet : Name δ) ∈ sheets := by
  cases sheet <;> simp [sheets]

omit [DecidableEq δ] in
/-- A journal that is planned for new texts may become pending. -/
theorem Planned.of_candidates {edits : Edits lib} {updates : List (Name δ × Option Bytes)}
    {journal : Journal (Name δ)} {kind : Kind} {w : Greeter δ} (hkind : kind ≠ .wallpaper)
    (h : Planned updates journal.images w.file) (hsound : Sound lib torn w)
    (hphase : journal.phase = .prepared)
    (hsub : (journal.images.map Image.name).Sublist (updates.map Prod.fst))
    (hnames : updates.map Prod.fst = edits.edits.map (fun edit => .sheet edit.1))
    (hprovided : ∀ update ∈ updates, Provided lib w.file update.2)
    (howned : kind = .theme → ∃ uid, journal.caller = some uid) :
    Pending lib torn w.file kind journal := by
  refine h.pending hsound hphase (hsub.nodup (hnames ▸ edits.sheets_nodup)) (fun update hupdate => ?_)
    hprovided howned
  have hmem : update.1 ∈ edits.edits.map (fun edit => (.sheet edit.1 : Name δ)) :=
    hnames ▸ List.mem_map_of_mem hupdate
  obtain ⟨edit, -, hedit⟩ := List.mem_map.1 hmem
  rw [← hedit]
  cases kind with
  | wallpaper => exact (hkind rfl).elim
  | theme | fields => exact mem_sheets edit.1

end Candidates

section Fields

/-- A journal of field updates that was read, and nothing else is pending. -/
def Found (lib : Library δ) (torn : Bool) (journal : Journal (Name δ)) (w : Greeter δ) : Prop :=
  Sound lib torn w ∧ ∃ stored, w.journal .fields = some stored ∧ journal.Same stored

theorem rule_settleFields (journal : Journal (Name δ)) :
    Rule lib torn (Found lib torn journal) (settleFields journal)
      (fun _ w => Sound lib torn w ∧ w.journal .fields ≠ none) (Sound lib torn) := by
  unfold settleFields
  split
  case h_1 hphase =>
    refine (rule_rollback .fields journal).mono (fun w hw => ?_) (fun _ w hw => ?_) fun _ hw => hw.1
    · obtain ⟨hsound, stored, hstored, hsame⟩ := hw
      exact hsound.holds hstored hsame fun _ => hsame.2.1 ▸ hphase
    · obtain ⟨hsound, stored, hstored, -⟩ := hw
      exact ⟨hsound, by simp [hstored]⟩
  case h_2 hphase =>
    refine (triple_checkCommitted observing_guarded.reading journal fun _ hw => hw.1).mono (fun _ hw => hw) (fun _ w hw => ?_)
      fun _ hw => hw
    obtain ⟨hsound, stored, hstored, -⟩ := hw
    exact ⟨hsound, by simp [hstored]⟩

/-- The rule of the recovery of a field update. -/
theorem rule_recoverFields :
    Rule lib torn (Sound lib torn) recoverFields (fun _ => Clear lib torn) (Sound lib torn) := by
  refine .bind (observing_guarded.refuse .wallpaper fun _ hw => hw) fun _ =>
    bind (observing_guarded.refuse .theme fun _ hw => hw.1) fun _ =>
      bind (observing_guarded.journal .fields fun _ hw => hw.1.1) fun pending => ?_
  cases pending with
  | none =>
    refine .pure fun w hw => ⟨hw.1.1.1, ?_⟩
    rintro (_ | _ | _)
    · exact hw.1.2
    · exact hw.2.1 rfl
    · exact hw.1.1.2
  | some journal =>
    refine .bind (triple_validate _ journal fun _ hw => hw.1.1.1) fun _ =>
      bind ((rule_settleFields journal).before fun w hw =>
        ⟨hw.1.1.1.1, hw.1.2.2 journal rfl⟩) fun _ => rule_clearJournal fun w hw =>
          ⟨hw.1, fun other hother => ?_⟩
    by_contra hpending
    exact hother (hw.1.exclusive other .fields hpending hw.2)

theorem rule_undoFields (journal : Journal (Name δ)) (e : Fault) {Q : Unit → Greeter δ → Prop} :
    Rule lib torn (Holds lib torn .fields journal) (undoFields journal e) Q (Sound lib torn) :=
  bind ((rule_rollback .fields journal).mono (fun _ h => h) (fun _ _ h => h) fun _ h => h.1) fun _ =>
    bind (rule_removeJournal .fields fun _ hw => hw.1) fun _ => .raise fun _ hw => hw.1

/-- The rule of the commitment. -/
theorem rule_commitFields (journal : Journal (Name δ)) :
    Rule lib torn (fun w => Holds lib torn .fields journal w ∧ Applied journal w)
      (putJournal .fields { journal with phase := .committed }) (fun _ => Sound lib torn)
      (Holds lib torn .fields journal) := by
  refine rule_putJournal (fun w hw => ⟨hw.1.others, ?_⟩) (fun _ _ hsound => hsound)
    (fun _ hw => hw.1) fun w hw hsound hkept => ?_
  · obtain ⟨⟨hsound, stored, hstored, -, hperm⟩, happlied⟩ := hw
    exact (hsound.pending _ stored hstored).commit hperm happlied
  · exact ⟨hsound, { journal with phase := .committed }, setJournal_journal ..,
      fun htorn => (hkept htorn rfl rfl).elim, .refl _⟩

/-- The rule of a new field update. -/
theorem rule_updateFields (edits : Edits lib) (token : ℕ) :
    Rule lib torn (Clear lib torn) (updateFields edits token) (fun _ => Sound lib torn)
      (Sound lib torn) := by
  refine .bind (rule_candidates edits (fun _ hw => hw.1) fun _ hw => hw.1) fun updates =>
    bind (triple_plan observing_guarded.reading updates token fun _ hw => hw.1.1) fun journal =>
      bind (triple_validate _ journal fun _ hw => hw.1.1.1) fun _ => ?_
  refine .assume (p := journal.phase = .prepared) (fun _ hw => hw.1.2.1) fun hphase =>
    bind (rule_prepare hphase (fun _ hw => hw.1.1.1) fun w hw => ?_) fun _ => ?_
  · obtain ⟨⟨⟨hclear, hnames, hprovided⟩, -, -, hplanned, hsub⟩, -⟩ := hw
    exact hplanned.of_candidates (by decide) hclear.1 hphase hsub hnames hprovided fun h => by cases h
  · have hcommit : Rule lib torn (Holds lib torn .fields journal) (do
        apply config journal
        putJournal .fields { journal with phase := .committed }) (fun _ => Sound lib torn)
        (Holds lib torn .fields journal) :=
      bind (rule_apply .fields journal) fun _ => rule_commitFields journal
    exact .bind (.handle hcommit fun e => rule_undoFields journal e) fun _ =>
      (rule_removeJournal .fields fun _ hw => hw).mono (fun _ h => h) (fun _ _ hw => hw.1)
        fun _ h => h

/-- The rule of `apply_root_greeter`. -/
theorem rule_applyRootGreeter (edits : Edits lib) (token : ℕ) :
    Rule lib torn (Sound lib torn) (applyRootGreeter edits token) (fun _ => Sound lib torn)
      (Sound lib torn) :=
  bind rule_recoverFields fun _ => rule_updateFields edits token

end Fields

section Theme

theorem rule_undoTheme (journal : Journal (Name δ)) (e : Fault) {Q : Unit → Greeter δ → Prop} :
    Rule lib torn (Holds lib torn .theme journal) (undoTheme journal e) Q (Sound lib torn) :=
  bind ((rule_rollback .theme journal).mono (fun _ h => h) (fun _ _ h => h) fun _ h => h.1) fun _ =>
    bind (rule_removeJournal .theme fun _ hw => hw.1) fun _ => .raise fun _ hw => hw.1

/-- The rule of the application of a theme. -/
theorem rule_applyTheme (uid token : ℕ) (edits : Edits lib) :
    Rule lib torn (Clear lib torn) (applyTheme uid token edits) (fun _ => Sound lib torn)
      (Sound lib torn) := by
  refine .bind (rule_candidates edits (fun _ hw => hw.1) fun _ hw => hw.1) fun updates =>
    bind (triple_plan observing_guarded.reading updates token fun _ hw => hw.1.1) fun planned => ?_
  refine .assume (p := planned.phase = .prepared) (fun _ hw => hw.2.1) fun hphase =>
    bind (Q := fun _ => Holds lib torn .theme { planned with caller := some uid })
      (rule_prepare hphase (fun _ hw => hw.1.1) fun w hw => ?_) fun _ => ?_
  · obtain ⟨⟨hclear, hnames, hprovided⟩, -, -, hplanned, hsub⟩ := hw
    have howned : (.theme : Kind) = .theme → ∃ uid',
      ({ planned with caller := some uid } : Journal (Name δ)).caller = some uid' :=
      fun _ => ⟨uid, rfl⟩
    have hplanned' : Planned updates
        ({ planned with caller := some uid } : Journal (Name δ)).images w.file := hplanned
    exact hplanned'.of_candidates (by decide) hclear.1 hphase hsub hnames hprovided howned
  · have happly : Rule lib torn (Holds lib torn .theme { planned with caller := some uid })
        (apply config { planned with caller := some uid }) (fun _ => Sound lib torn)
        (Holds lib torn .theme { planned with caller := some uid }) :=
      (rule_apply .theme _).mono (fun _ h => h) (fun _ _ hw => hw.1.1) fun _ h => h
    exact .handle happly fun e => rule_undoTheme _ e

/-- The rule of the theme helper. -/
theorem rule_theme (uid token : ℕ) (action : ThemeAction lib) :
    Rule lib torn (Sound lib torn) (theme uid token action) (fun _ => Sound lib torn)
      (Sound lib torn) := by
  refine .bind (observing_guarded.refuse .wallpaper fun _ hw => hw) fun _ =>
    bind (observing_guarded.refuse .fields fun _ hw => hw.1) fun _ =>
      bind (observing_guarded.journal .theme fun _ hw => hw.1.1) fun pending =>
        bind (Observing.checkCaller uid token pending fun _ hw => hw.1.1.1) fun _ => ?_
  cases pending with
  | none =>
    have hclear : ∀ w : Greeter δ, Sound lib torn w → w.journal .wallpaper = none →
        w.journal .fields = none → w.journal .theme = none → Clear lib torn w := by
      intro w hsound hwallpaper hfields htheme
      refine ⟨hsound, ?_⟩
      rintro (_ | _ | _)
      · exact htheme
      · exact hfields
      · exact hwallpaper
    cases action with
    | commit | rollback => exact .pure fun _ hw => hw.1.1.1
    | apply edits =>
      exact (rule_applyTheme uid token edits).before fun w hw =>
        hclear w hw.1.1.1 hw.1.1.2 hw.1.2 (hw.2.1 rfl)
  | some journal =>
    have hfound : ∀ w : Greeter δ, Sound lib torn w →
        (∃ stored, w.journal .theme = some stored ∧ journal.Same stored) →
          Holds lib torn .theme journal w := by
      rintro w hsound ⟨stored, hstored, hsame⟩
      exact hsound.holds hstored hsame fun _ =>
        (hsound.pending _ stored hstored).prepared (by decide)
    cases action with
    | commit =>
      exact .bind (observing_guarded.requireNew journal.images fun _ hw => hw.1.1.1) fun _ =>
        (rule_removeJournal .theme fun _ hw => hw.1.1.1).mono (fun _ h => h) (fun _ _ hw => hw.1)
          fun _ h => h
    | rollback =>
      refine .bind ((rule_rollback .theme journal).mono (fun w hw =>
        hfound w hw.1.1.1 (hw.2.2 journal rfl)) (fun _ _ h => h) fun _ hw => hw.1) fun _ => ?_
      exact (rule_removeJournal .theme fun _ hw => hw.1).mono (fun _ h => h) (fun _ _ hw => hw.1)
        fun _ h => h
    | apply edits =>
      exact (observing_guarded.requireNew journal.images fun _ hw => hw.1.1.1).mono (fun _ h => h)
        (fun _ _ hw => hw.1.1.1) fun _ h => h

/-- Every operation keeps the invariant. -/
theorem rule_operation (hlib : lib.Lawful) (operation : Operation lib) :
    Rule lib torn (Sound lib torn) operation.run (fun _ => Sound lib torn) (Sound lib torn) := by
  cases operation with
  | theme uid token action => exact rule_theme uid token action
  | fields edits token => exact rule_applyRootGreeter edits token
  | wallpaper data token => exact rule_publish hlib data token

end Theme

end Preseed.Appearance
